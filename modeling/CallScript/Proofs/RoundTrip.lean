import CallScript.Proofs.SourceConcatenation

/-!
# Writing a script and reading it back

A script is a list of calls. A call has a target, which is the core, an object or nothing at all, a
method and at most one argument, which is a string, a number or a name. `Script.source` writes a
script down and `Script.tree` is the syntax tree it stands for.

Written scripts are read back as they are (`parseSource_source`). The text of a call is laid out as
the words it consists of, so that the statement splits in two: each word is a lexeme in front of the
word behind it (`Call.sequence`), and the tokens of the words are those of a statement with the tree
of the call (`Call.exists_statement`). What keeps a name or a number from running on is always the
punctuation that follows it.

And nothing else is ever read (`exists_tree_of_parseSource`). A token that was read from a text
comes from a lexeme, and no lexeme is a comma or a bracket. So an argument list has at most one item
and there are no arrays, however freely the grammar allows them. A number may be written with more
points than a numeral has, but the numeral it starts with has the same value
(`Numeral.value_ofRun`).
-/

namespace CallScript

open Grammar LexicalGrammar

/-! ## Words without gaps -/

namespace LexicalGrammar

/-- A word with no gap before it. -/
def word (text : List Char) (kind : TokenKind) (value : Scalar) : Word := ⟨[], text, kind, value⟩

theorem Sequence.word {text rest : List Char} {kind : TokenKind} {value : Scalar}
    {words : List Word} (h : Lexeme text kind value (written words ++ rest))
    (hwords : Sequence words rest) : Sequence (word text kind value :: words) rest :=
  ⟨.nil _, h, hwords⟩

/-- The token of a lexeme that follows a text. -/
def tokenAfter (before : List Char) (kind : TokenKind) (value : Scalar) : TokenOf kind :=
  ⟨Lexer.stamp (placeAfter before) (kind, value), rfl⟩

theorem tokensAfter_word (before text : List Char) (kind : TokenKind) (value : Scalar)
    (words : List Word) :
    tokensAfter before (word text kind value :: words)
      = (tokenAfter before kind value).val :: tokensAfter (before ++ text) words := by
  show (tokenAfter (before ++ []) kind value).val :: tokensAfter (before ++ [] ++ text) words = _
  rw [List.append_nil]

/-- The tokens of words that follow others stand behind what those have written. -/
theorem tokensAfter_append (before : List Char) (words words' : List Word) :
    tokensAfter before (words ++ words')
      = tokensAfter before words ++ tokensAfter (before ++ written words) words' := by
  induction words generalizing before with
  | nil => rw [written_nil, List.append_nil]; rfl
  | cons w words ih =>
    rw [List.cons_append, tokensAfter, tokensAfter, ih, written_cons, List.cons_append,
      ← List.append_assoc, ← List.append_assoc]

end LexicalGrammar

namespace Script

/-! ## Scripts -/

/-- Whether a text is an identifier: a name other than the keyword. -/
def isIdentifier : List Char → Bool
  | [] => false
  | c :: run =>
    Lexer.isNameStart c && run.all Lexer.isNameChar && c :: run ≠ ['c', 'o', 'r', 'e']

/-- An identifier. -/
abbrev Identifier : Type := { name : String // isIdentifier name.toList = true }

/-- A numeral: digits, and perhaps a point and more digits behind it, of which there may be none. -/
structure Numeral where
  whole : List Char
  fraction : Option (List Char)
  whole_ne_nil : whole ≠ []
  isBasicDigit_whole : ∀ c ∈ whole, Binary64.isBasicDigit c = true
  isBasicDigit_fraction : ∀ digits ∈ fraction, ∀ c ∈ digits, Binary64.isBasicDigit c = true

/-- An argument of a call. -/
inductive Argument where
  | string (s : String)
  | number (n : Numeral)
  | name (x : Identifier)

/-- What a method is called on. -/
inductive Target where
  | core
  | object (x : Identifier)
  /-- Nothing: the method is called directly. -/
  | direct

/-- **A call.** -/
structure Call where
  target : Target
  method : Identifier
  argument : Option Argument

/-! ## Scripts as text -/

/-- A character of a string literal: quotes and backslashes are preceded by a backslash. -/
def escape (c : Char) : List Char := if c = '"' || c = '\\' then ['\\', c] else [c]

/-- The text of a numeral. -/
def Numeral.text (n : Numeral) : List Char :=
  n.whole ++ (n.fraction.map ('.' :: ·)).getD []

/-- The text of an argument. -/
def Argument.text : Argument → List Char
  | string s => '"' :: s.toList.flatMap escape ++ ['"']
  | number n => n.text
  | name x => x.val.toList

/-- The text of a target, up to the method. -/
def Target.text : Target → List Char
  | core => ['c', 'o', 'r', 'e', '.']
  | object x => x.val.toList ++ ['.']
  | direct => []

/-- The text of a call. -/
def Call.text (c : Call) : List Char :=
  c.target.text ++ c.method.val.toList
    ++ '(' :: ((c.argument.map Argument.text).getD [] ++ [')', ';'])

/-- **A script as source text.** -/
def source (calls : List Call) : String := String.ofList (calls.flatMap Call.text)

/-! ## Scripts as trees -/

/-- The value of a numeral. -/
def Numeral.value (n : Numeral) : Binary64 := Binary64.literalValue n.text

/-- The tree of an argument. -/
def Argument.node : Argument → Node
  | string s => ⟨.string, .text s, []⟩
  | number n => ⟨.number, .float n.value, []⟩
  | name x => ⟨.identifier, .text x.val, []⟩

/-- The tree of a target, if there is one. -/
def Target.node? : Target → Option Node
  | core => some ⟨.core, .text "core", []⟩
  | object x => some ⟨.identifier, .text x.val, []⟩
  | direct => none

/-- The tree of a call. -/
def Call.node (c : Call) : Node :=
  ⟨.call, .null, c.target.node?.toList ++ ⟨.method, .text c.method.val, []⟩
    :: (c.argument.map Argument.node).toList⟩

/-- **A script as a syntax tree.** -/
def tree (calls : List Call) : Node := ⟨.program, .null, calls.map Call.node⟩

/-! ## Names, numbers and strings are lexemes -/

theorem isNumberChar_of_isBasicDigit {c : Char} (h : Binary64.isBasicDigit c = true) :
    Lexer.isNumberChar c = true := by
  rw [Lexer.isNumberChar, h, Bool.true_or]

/-- An identifier is a lexeme where a name ends. -/
theorem lexeme_identifier (x : Identifier) {rest : List Char}
    (hend : Bounded Lexer.isNameChar rest) :
    Lexeme x.val.toList .identifier (.text x.val) rest := by
  have h := x.property
  rw [← String.ofList_toList (s := x.val)]
  cases hx : x.val.toList with
  | nil => rw [hx] at h; cases h
  | cons c run =>
    rw [hx] at h
    unfold isIdentifier at h
    rw [Bool.and_eq_true, Bool.and_eq_true, List.all_eq_true, decide_eq_true_eq] at h
    obtain ⟨⟨hc, hrun⟩, hother⟩ := h
    rw [String.toList_ofList]
    exact .name hc hrun hend hother

/-- The characters of a numeral are digits, but for its point. -/
theorem Numeral.isNumberChar_of_mem (n : Numeral) : ∀ c ∈ n.text, Lexer.isNumberChar c = true := by
  intro c hc
  unfold Numeral.text at hc
  obtain hc | hc := List.mem_append.mp hc
  · exact isNumberChar_of_isBasicDigit (n.isBasicDigit_whole c hc)
  · cases hfraction : n.fraction with
    | none => rw [hfraction] at hc; cases hc
    | some digits =>
      rw [hfraction] at hc
      obtain rfl | hc := List.mem_cons.mp hc
      · decide
      · exact isNumberChar_of_isBasicDigit (n.isBasicDigit_fraction digits hfraction c hc)

/-- **A numeral is read as its value.** -/
theorem Numeral.readLiteral_text (n : Numeral) :
    Binary64.readLiteral (String.ofList n.text) = .ok n.value := by
  unfold Numeral.value Numeral.text
  cases hwhole : n.whole with
  | nil => exact absurd hwhole n.whole_ne_nil
  | cons c run =>
    refine Lexer.readLiteral_of_isBasicDigit (n.isBasicDigit_whole c ?_) _
    rw [hwhole]
    exact List.mem_cons_self

/-- A numeral is a lexeme where a number ends. -/
theorem lexeme_numeral (n : Numeral) {rest : List Char} (hend : Bounded Lexer.isNumberChar rest) :
    Lexeme n.text .number (.float n.value) rest := by
  have hread := n.readLiteral_text
  have hchars := n.isNumberChar_of_mem
  cases hwhole : n.whole with
  | nil => exact absurd hwhole n.whole_ne_nil
  | cons c run =>
    have htext : n.text = c :: (run ++ (n.fraction.map ('.' :: ·)).getD []) := by
      rw [Numeral.text, hwhole, List.cons_append]
    have hc : Binary64.isBasicDigit c = true := n.isBasicDigit_whole c (by simp [hwhole])
    rw [htext] at hread hchars ⊢
    exact .number hc (List.forall_mem_cons.mp hchars).2 hend hread

/-- What is escaped is the inside of a string literal. -/
theorem quoted_escape (cs : List Char) : Quoted (cs.flatMap escape) cs := by
  induction cs with
  | nil => exact .nil
  | cons c cs ih =>
    rw [List.flatMap_cons]
    unfold escape
    split
    · exact .escaped ih
    · next h =>
      rw [Bool.or_eq_true, decide_eq_true_eq, decide_eq_true_eq, not_or] at h
      exact .plain h.1 h.2 ih

/-! ## Calls as words -/

/-- The kind of the token of an argument. -/
def Argument.kind : Argument → TokenKind
  | string _ => .string
  | number _ => .number
  | name _ => .identifier

/-- The value of the token of an argument. -/
def Argument.value : Argument → Scalar
  | string s => .text s
  | number n => .float n.value
  | name x => .text x.val

/-- An argument is a lexeme before a closing parenthesis. -/
theorem Argument.lexeme (a : Argument) (rest : List Char) :
    Lexeme a.text a.kind a.value (')' :: rest) := by
  have hname : Bounded Lexer.isNameChar (')' :: rest) := by rintro c ⟨⟩; decide
  have hnumber : Bounded Lexer.isNumberChar (')' :: rest) := by rintro c ⟨⟩; decide
  cases a with
  | string s =>
    have h := Lexeme.string (quoted_escape s.toList) (.quote (')' :: rest))
    rwa [String.ofList_toList] at h
  | number n => exact lexeme_numeral n hnumber
  | name x => exact lexeme_identifier x hname

/-- The words of an argument list, from the opening parenthesis to the semicolon. -/
def tailWords (argument : Option Argument) : List Word :=
  word ['('] .leftParen .null
    :: ((argument.map fun a => word a.text a.kind a.value).toList
      ++ [word [')'] .rightParen .null, word [';'] .semicolon .null])

/-- The words of a target, up to the method. -/
def Target.words : Target → List Word
  | core => [word ['c', 'o', 'r', 'e'] .core (.text "core"), word ['.'] .dot .null]
  | object x => [word x.val.toList .identifier (.text x.val), word ['.'] .dot .null]
  | direct => []

/-- The words of a call. -/
def Call.words (c : Call) : List Word :=
  c.target.words ++ word c.method.val.toList .identifier (.text c.method.val)
    :: tailWords c.argument

/-- The words of a call write its text. -/
theorem Call.written_words (c : Call) : written c.words = c.text := by
  obtain ⟨target, method, argument⟩ := c
  cases target <;> cases argument <;>
    simp [Call.words, Call.text, Target.words, Target.text, tailWords, word, written]

theorem written_flatMap_words (calls : List Call) :
    written (calls.flatMap Call.words) = calls.flatMap Call.text := by
  induction calls with
  | nil => rfl
  | cons c calls ih =>
    rw [List.flatMap_cons, List.flatMap_cons, ← c.written_words, ← ih]
    exact List.flatMap_append

/-- The words of a tail may stand before any others. -/
theorem sequence_tailWords (argument : Option Argument) {words : List Word} {rest : List Char}
    (h : Sequence words rest) : Sequence (tailWords argument ++ words) rest := by
  have hclose : Sequence
      (word [')'] .rightParen .null :: word [';'] .semicolon .null :: words) rest :=
    .word (.rightParen _) (.word (.semicolon _) h)
  cases argument with
  | none => exact .word (.leftParen _) hclose
  | some a => exact .word (.leftParen _) (.word (a.lexeme _) hclose)

/-- **The words of a call stand in front of any other words**, since a call ends with a
semicolon. -/
theorem Call.sequence (c : Call) {words : List Word} {rest : List Char} (h : Sequence words rest) :
    Sequence (c.words ++ words) rest := by
  have hparen : ∀ behind, Bounded Lexer.isNameChar ('(' :: behind) := by rintro _ c ⟨⟩; decide
  have hdot : ∀ behind, Bounded Lexer.isNameChar ('.' :: behind) := by rintro _ c ⟨⟩; decide
  have hmethod : Sequence (word c.method.val.toList .identifier (.text c.method.val)
      :: (tailWords c.argument ++ words)) rest :=
    .word (lexeme_identifier c.method (hparen _)) (sequence_tailWords c.argument h)
  unfold Call.words
  rw [List.append_assoc, List.cons_append]
  cases c.target with
  | core => exact .word (.keyword (hdot _)) (.word (.dot _) hmethod)
  | object x => exact .word (lexeme_identifier x (hdot _)) (.word (.dot _) hmethod)
  | direct => exact hmethod

/-- **The words of calls are separate lexemes**, one after the other. -/
theorem sequence_flatMap_words (calls : List Call) : Sequence (calls.flatMap Call.words) [] := by
  induction calls with
  | nil => trivial
  | cons c calls ih => exact c.sequence ih

/-- The words of a script, as the factorisation of its text. -/
def factorisation (calls : List Call) : Factorisation (source calls).toList where
  words := calls.flatMap Call.words
  last := []
  written_append_last := by
    rw [List.append_nil, written_flatMap_words, source, String.toList_ofList]
  sequence := sequence_flatMap_words calls
  gap := .nil []

/-! ## The tokens of a call are those of a statement -/

/-- The derivation of an argument that follows a text. -/
def Argument.expression (before : List Char) : Argument → Expression
  | string s => .string (tokenAfter before _ (.text s))
  | number n => .number (tokenAfter before _ (.float n.value))
  | name x => .identifier (tokenAfter before _ (.text x.val))

theorem Argument.tokens_expression (a : Argument) (before : List Char) :
    (a.expression before).tokens = [(tokenAfter before a.kind a.value).val] := by
  cases a <;> rfl

theorem Argument.node_expression (a : Argument) (before : List Char) :
    (a.expression before).node = a.node := by
  cases a <;> rfl

/-- The tokens of a tail are those of a derivation with its arguments. -/
theorem exists_tail (argument : Option Argument) (before : List Char) :
    ∃ tail : Tail, tail.tokens = tokensAfter before (tailWords argument) ∧
      tail.arguments.nodes = (argument.map Argument.node).toList := by
  cases argument with
  | none => exact ⟨⟨⟨_, rfl⟩, .none, ⟨_, rfl⟩, ⟨_, rfl⟩⟩, rfl, rfl⟩
  | some a =>
    refine ⟨⟨tokenAfter before _ .null, .some (a.expression (before ++ ['('])) .done,
      tokenAfter (before ++ ['('] ++ a.text) _ .null,
      tokenAfter (before ++ ['('] ++ a.text ++ [')']) _ .null⟩, ?_, ?_⟩
    · unfold Tail.tokens tailWords
      show _ = tokensAfter before [_, _, _, _]
      rw [tokensAfter_word, tokensAfter_word, tokensAfter_word, tokensAfter_word, Items.tokens,
        a.tokens_expression]
      rfl
    · rw [Items.nodes, a.node_expression]
      rfl

/-- **The tokens of a call, wherever it stands, are those of a statement with its tree.** -/
theorem Call.exists_statement (c : Call) (before : List Char) :
    ∃ s : Statement, s.tokens = tokensAfter before c.words ∧ s.node? = some c.node := by
  obtain ⟨target, method, argument⟩ := c
  obtain ⟨tail, htokens, hnodes⟩ :=
    exists_tail argument (before ++ written target.words ++ method.val.toList)
  let name := tokenAfter (before ++ written target.words) .identifier (.text method.val)
  -- the words of the target come before those of the method and of the argument
  have hwords : tokensAfter before (Call.mk target method argument).words
      = tokensAfter before target.words ++ name.val :: tail.tokens := by
    rw [Call.words, tokensAfter_append, tokensAfter_word, htokens]
  rw [hwords]
  cases target with
  | core =>
    refine ⟨.coreCall (tokenAfter before _ (.text "core"))
      (tokenAfter (before ++ ['c', 'o', 'r', 'e']) _ .null) name tail, ?_, ?_⟩
    · rw [Target.words, tokensAfter_word, tokensAfter_word]
      rfl
    · rw [Statement.node?, hnodes]
      rfl
  | object x =>
    refine ⟨.objectCall (tokenAfter before _ (.text x.val))
      (tokenAfter (before ++ x.val.toList) _ .null) name tail, ?_, ?_⟩
    · rw [Target.words, tokensAfter_word, tokensAfter_word]
      rfl
    · rw [Statement.node?, hnodes]
      rfl
  | direct =>
    refine ⟨.directCall name tail, rfl, ?_⟩
    rw [Statement.node?, hnodes]
    rfl

/-- The tokens of a script are those of a program with its tree. -/
theorem exists_program (calls : List Call) (before : List Char) :
    ∃ d : Program, d.tokens = tokensAfter before (calls.flatMap Call.words) ∧
      d.nodes = calls.map Call.node := by
  induction calls generalizing before with
  | nil => exact ⟨[], rfl, rfl⟩
  | cons c calls ih =>
    obtain ⟨s, hs, hnode⟩ := c.exists_statement before
    obtain ⟨d, hd, hnodes⟩ := ih (before ++ written c.words)
    refine ⟨s :: d, ?_, ?_⟩
    · rw [Program.tokens_cons, hs, hd, List.flatMap_cons, tokensAfter_append]
    · rw [Program.nodes_cons, hnode, hnodes]
      rfl

/-- **A written script is read back.** -/
theorem parseSource_source (calls : List Call) : parseSource (source calls) = .ok (tree calls) := by
  obtain ⟨d, htokens, hnodes⟩ := exists_program calls []
  have hread := tokenize_of_factorisation (factorisation calls)
  rw [show (factorisation calls).tokens = d.tokens from htokens.symm] at hread
  rw [parseSource_of_tokens ⟨_, rfl⟩ hread, Program.node, hnodes]
  rfl

/-! ## What was read from a text -/

end Script

namespace LexicalGrammar

/-- **No lexeme is a comma or a bracket.** -/
theorem FromLexeme.kind_ne {t : Token} (h : FromLexeme t) :
    t.kind ≠ .comma ∧ t.kind ≠ .leftBracket ∧ t.kind ≠ .rightBracket := by
  obtain ⟨text, behind, value, hlexeme, -⟩ := h
  cases hkind : t.kind <;> rw [hkind] at hlexeme <;> cases hlexeme <;> decide

theorem FromLexeme.value_core {t : Token} (h : FromLexeme t) (hkind : t.kind = .core) :
    t.value = .text "core" := by
  obtain ⟨text, behind, value, hlexeme, hvalue⟩ := h
  rw [hkind] at hlexeme
  cases hlexeme
  exact hvalue

/-- A string of a source text holds a text. -/
theorem FromLexeme.value_string {t : Token} (h : FromLexeme t) (hkind : t.kind = .string) :
    ∃ s, t.value = .text s := by
  obtain ⟨text, behind, value, hlexeme, hvalue⟩ := h
  rw [hkind] at hlexeme
  cases hlexeme
  exact ⟨_, hvalue⟩

/-- An identifier of a source text holds a name. -/
theorem FromLexeme.value_identifier {t : Token} (h : FromLexeme t) (hkind : t.kind = .identifier) :
    ∃ x : Script.Identifier, t.value = .text x.val := by
  obtain ⟨text, behind, value, hlexeme, hvalue⟩ := h
  rw [hkind] at hlexeme
  cases hlexeme with
  | @name c run _ hc hrun hend hother =>
    refine ⟨⟨String.ofList (c :: run), ?_⟩, hvalue⟩
    rw [String.toList_ofList, Script.isIdentifier, hc, List.all_eq_true.mpr hrun,
      decide_eq_true hother]
    rfl

end LexicalGrammar

namespace Script

/-- The only digits among the characters of a number are the basic ones. -/
theorem isBasicDigit_of_isDecimalDigit {c : Char} (h : Text.isDecimalDigit c = true)
    (hnumber : Lexer.isNumberChar c = true) : Binary64.isBasicDigit c = true := by
  unfold Lexer.isNumberChar at hnumber
  rw [Bool.or_eq_true, decide_eq_true_eq] at hnumber
  obtain hdigit | rfl := hnumber
  · exact hdigit
  · exact absurd h (by decide)

/-- The numeral that a text starts with, as far as it is made of digits and points. -/
def Numeral.ofRun (cs : List Char) (hwhole : Binary64.literalWhole cs ≠ [])
    (hcs : ∀ c ∈ cs, Lexer.isNumberChar c = true) : Numeral where
  whole := Binary64.literalWhole cs
  fraction := match cs.dropWhile Text.isDecimalDigit with
    | '.' :: tail => some (tail.takeWhile Text.isDecimalDigit)
    | _ => none
  whole_ne_nil := hwhole
  isBasicDigit_whole c hc :=
    isBasicDigit_of_isDecimalDigit (List.mem_takeWhile_imp hc)
      (hcs c ((List.takeWhile_sublist _).mem hc))
  isBasicDigit_fraction digits hdigits c hc := by
    split at hdigits
    · next tail htail =>
      obtain rfl := Option.some.inj hdigits
      refine isBasicDigit_of_isDecimalDigit (List.mem_takeWhile_imp hc) (hcs c ?_)
      have hmem : c ∈ '.' :: tail := List.mem_cons_of_mem _ ((List.takeWhile_sublist _).mem hc)
      rw [← htail] at hmem
      exact (List.dropWhile_sublist _).mem hmem
    · cases hdigits

/-- The value of a numeral, by its digits. -/
theorem Numeral.value_eq (n : Numeral) :
    n.value = (Binary64.ofParts n.whole (n.fraction.getD []) 0).toBinary64 false := by
  have hwhole : ∀ c ∈ n.whole, Text.isDecimalDigit c = true :=
    fun c hc => Lexer.isDecimalDigit_of_isBasicDigit (n.isBasicDigit_whole c hc)
  have hend : Bounded Text.isDecimalDigit ((n.fraction.map ('.' :: ·)).getD []) := by
    cases n.fraction with
    | none => rintro c ⟨⟩
    | some digits => rintro c ⟨⟩; decide
  unfold Numeral.value Binary64.literalValue Binary64.literalWhole Binary64.literalFraction
    Numeral.text
  rw [takeWhile_run hwhole hend, dropWhile_run hwhole hend]
  cases hfraction : n.fraction with
  | none => rfl
  | some digits =>
    have hdigits : ∀ c ∈ digits, Text.isDecimalDigit c = true := fun c hc =>
      Lexer.isDecimalDigit_of_isBasicDigit (n.isBasicDigit_fraction digits hfraction c hc)
    show (Binary64.ofParts n.whole (digits.takeWhile Text.isDecimalDigit) 0).toBinary64 false = _
    rw [List.takeWhile_eq_self_iff.mpr hdigits]
    rfl

/-- **A run of digits and points has the value of the numeral it starts with.** -/
theorem Numeral.value_ofRun (cs : List Char) (hwhole : Binary64.literalWhole cs ≠ [])
    (hcs : ∀ c ∈ cs, Lexer.isNumberChar c = true) :
    (Numeral.ofRun cs hwhole hcs).value = Binary64.literalValue cs := by
  have hfraction : (Numeral.ofRun cs hwhole hcs).fraction.getD []
      = Binary64.literalFraction cs := by
    unfold Numeral.ofRun Binary64.literalFraction
    dsimp only
    generalize cs.dropWhile Text.isDecimalDigit = rest
    cases rest with
    | nil => rfl
    | cons c tail =>
      by_cases hc : c = '.'
      · rw [hc]
        rfl
      · simp [hc]
  rw [Numeral.value_eq, hfraction]
  rfl

end Script

namespace LexicalGrammar

/-- A number of a source text has the value of a numeral. -/
theorem FromLexeme.value_number {t : Token} (h : FromLexeme t) (hkind : t.kind = .number) :
    ∃ n : Script.Numeral, t.value = .float n.value := by
  obtain ⟨text, behind, value, hlexeme, hvalue⟩ := h
  rw [hkind] at hlexeme
  cases hlexeme with
  | @number c run _ x hc hrun hend hx =>
    rw [Lexer.readLiteral_of_isBasicDigit hc] at hx
    obtain rfl := Except.ok.inj hx
    have hwhole : Binary64.literalWhole (c :: run) ≠ [] := by
      rw [Binary64.literalWhole,
        List.takeWhile_cons_of_pos (Lexer.isDecimalDigit_of_isBasicDigit hc)]
      exact List.cons_ne_nil _ _
    have hchars : ∀ x ∈ c :: run, Lexer.isNumberChar x = true :=
      List.forall_mem_cons.mpr ⟨Script.isNumberChar_of_isBasicDigit hc, hrun⟩
    exact ⟨.ofRun (c :: run) hwhole hchars, by rw [hvalue, Script.Numeral.value_ofRun]⟩

end LexicalGrammar

namespace Script

/-! ## Every tree that is read is the tree of a script -/

/-- An expression of a source text is an argument: it has no brackets, for no lexeme is one. -/
theorem exists_argument_of_expression (e : Expression) (h : ∀ t ∈ e.tokens, FromLexeme t) :
    ∃ a : Argument, e.node = a.node := by
  cases e with
  | string t =>
    obtain ⟨s, hs⟩ := (h t.val List.mem_cons_self).value_string t.property
    exact ⟨.string s, by rw [Expression.node, hs]; rfl⟩
  | number t =>
    obtain ⟨n, hn⟩ := (h t.val List.mem_cons_self).value_number t.property
    exact ⟨.number n, by rw [Expression.node, hn]; rfl⟩
  | identifier t =>
    obtain ⟨x, hx⟩ := (h t.val List.mem_cons_self).value_identifier t.property
    exact ⟨.name x, by rw [Expression.node, hx]; rfl⟩
  | array opening elements closing =>
    exact absurd opening.property (h opening.val List.mem_cons_self).kind_ne.2.1

/-- There is at most one argument, for no lexeme is a comma. -/
theorem exists_argument_of_items (items : Items) (h : ∀ t ∈ items.tokens, FromLexeme t) :
    ∃ argument : Option Argument, items.nodes = (argument.map Argument.node).toList := by
  cases items with
  | none => exact ⟨none, rfl⟩
  | some first more =>
    rw [Items.tokens, List.forall_mem_append] at h
    cases more with
    | done =>
      obtain ⟨a, ha⟩ := exists_argument_of_expression first h.1
      exact ⟨some a, by rw [Items.nodes, ha]; rfl⟩
    | next comma item more =>
      exact absurd comma.property (h.2 comma.val List.mem_cons_self).kind_ne.1

theorem exists_argument_of_tail (tail : Tail) (h : ∀ t ∈ tail.tokens, FromLexeme t) :
    ∃ argument : Option Argument,
      tail.arguments.nodes = (argument.map Argument.node).toList := by
  refine exists_argument_of_items tail.arguments fun t ht => h t ?_
  exact List.mem_cons_of_mem _ (List.mem_append_left _ ht)

/-- **A statement of a source text is a call** with at most one argument. -/
theorem exists_call_of_statement (s : Statement) (h : ∀ t ∈ s.tokens, FromLexeme t) {node : Node}
    (hnode : s.node? = some node) : ∃ c : Call, node = c.node := by
  cases s with
  | empty semicolon => cases hnode
  | coreCall core dot method tail =>
    simp only [Statement.tokens, List.forall_mem_cons] at h
    obtain ⟨hcore, -, hmethod, htail⟩ := h
    obtain ⟨x, hx⟩ := hmethod.value_identifier method.property
    obtain ⟨argument, hargument⟩ := exists_argument_of_tail tail htail
    refine ⟨⟨.core, x, argument⟩, ?_⟩
    rw [Statement.node?, hcore.value_core core.property, hx, hargument] at hnode
    exact (Option.some.inj hnode).symm
  | directCall method tail =>
    rw [Statement.tokens, List.forall_mem_cons] at h
    obtain ⟨x, hx⟩ := h.1.value_identifier method.property
    obtain ⟨argument, hargument⟩ := exists_argument_of_tail tail h.2
    refine ⟨⟨.direct, x, argument⟩, ?_⟩
    rw [Statement.node?, hx, hargument] at hnode
    exact (Option.some.inj hnode).symm
  | objectCall object dot method tail =>
    simp only [Statement.tokens, List.forall_mem_cons] at h
    obtain ⟨hobject, -, hmethod, htail⟩ := h
    obtain ⟨y, hy⟩ := hobject.value_identifier object.property
    obtain ⟨x, hx⟩ := hmethod.value_identifier method.property
    obtain ⟨argument, hargument⟩ := exists_argument_of_tail tail htail
    refine ⟨⟨.object y, x, argument⟩, ?_⟩
    rw [Statement.node?, hy, hx, hargument] at hnode
    exact (Option.some.inj hnode).symm

/-- A program of a source text is a list of calls. -/
theorem exists_calls_of_program (d : Program) (h : ∀ t ∈ d.tokens, FromLexeme t) :
    ∃ calls : List Call, d.nodes = calls.map Call.node := by
  induction d with
  | nil => exact ⟨[], rfl⟩
  | cons s d ih =>
    rw [Program.tokens_cons, List.forall_mem_append] at h
    obtain ⟨calls, hcalls⟩ := ih h.2
    rw [Program.nodes_cons, hcalls]
    cases hnode : s.node? with
    | none => exact ⟨calls, rfl⟩
    | some node =>
      obtain ⟨c, rfl⟩ := exists_call_of_statement s h.1 hnode
      exact ⟨c :: calls, rfl⟩

/-- **What is read from a source text is the tree of some calls.** -/
theorem exists_tree_of_parseSource {source : String} {node : Node}
    (h : parseSource source = .ok node) : ∃ calls, node = tree calls := by
  obtain ⟨f, d, htokens, rfl⟩ := exists_program_of_parseSource h
  have hlexemes : ∀ t ∈ d.tokens, FromLexeme t := by
    intro t ht
    rw [← htokens] at ht
    exact fromLexeme_of_mem_tokensAfter f.sequence [] ht
  obtain ⟨calls, hcalls⟩ := exists_calls_of_program d hlexemes
  exact ⟨calls, by rw [Program.node, hcalls]; rfl⟩

/-- **Scripts and the source texts that are read.** Every script that is written down is read back
as its own tree, in which a number carries what its numeral is read as. And the trees that are read,
whatever the text, are exactly the trees of scripts. -/
theorem source_round_trip :
    (∀ calls : List Call, parseSource (source calls) = .ok (tree calls)) ∧
    (∀ n : Numeral, Binary64.readLiteral (String.ofList n.text) = .ok n.value) ∧
    ∀ node : Node, (∃ source, parseSource source = .ok node) ↔ ∃ calls, node = tree calls := by
  refine ⟨parseSource_source, Numeral.readLiteral_text, fun node => ⟨?_, ?_⟩⟩
  · rintro ⟨source, h⟩
    exact exists_tree_of_parseSource h
  · rintro ⟨calls, rfl⟩
    exact ⟨source calls, parseSource_source calls⟩

example : source [⟨.core, ⟨"say", by decide⟩, some (.string "a \"b\" \\")⟩,
    ⟨.direct, ⟨"wait", by decide⟩, none⟩] = "core.say(\"a \\\"b\\\" \\\\\");wait();" := by
  decide

end Script

end CallScript
