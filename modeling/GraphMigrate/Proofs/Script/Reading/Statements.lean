/-
Readers of statements stay in their text, and so does the reader of a
whole script.

* `reads_read`: the readers of all goals, by induction on the depth;
* `Module.agrees_of_parse`: what the nodes of a script record is so in the
  text behind a byte order mark.
-/
import GraphMigrate.Proofs.Script.Reading.Expressions
import GraphMigrate.Script.Grammar

namespace GraphMigrate.Script

open Std.Do

set_option mvcgen.warning false

namespace Grammar

variable [Subject] {rec : Rec} (hrec : ∀ goal, Reads (rec goal))

@[spec] lemma reads_finishStatement (start : Nat) {inside : List Node}
    (h : Agrees text inside) : Reads (finishStatement start inside) := by
  mvcgen [finishStatement] with grind

/-! ### Declarations -/

@[spec] lemma reads_requiredName : Reads requiredName := by
  mvcgen [requiredName] with grind

@[spec] lemma reads_atDeclarations : Reads atDeclarations := by
  mvcgen [atDeclarations] with grind

@[spec] lemma reads_jumpStatement (start : Nat) : Reads (jumpStatement start) := by
  mvcgen [jumpStatement] with grind

@[spec] lemma reads_moduleName : Reads moduleName := by
  mvcgen [moduleName] with grind

@[spec] lemma reads_specifier : Reads specifier := by
  mvcgen [specifier] with grind

@[spec] lemma reads_specifiers : Reads specifiers := by
  mvcgen [specifiers] with grind

@[spec] lemma reads_atImportPhase : Reads atImportPhase := by
  mvcgen [atImportPhase] with grind

include hrec

@[spec] lemma reads_declarator (needsValue : Bool) : Reads (declarator rec needsValue) := by
  mvcgen [declarator, hrec] with grind

@[spec] lemma reads_declarations (needsValue : Bool) :
    Reads (declarations rec needsValue) := by
  mvcgen [declarations, hrec] with grind

@[spec] lemma reads_resources? : Reads (resources? rec) := by
  mvcgen [resources?, hrec] with grind

/-! ### Control flow -/

@[spec] lemma reads_condition : Reads (condition rec) := by
  mvcgen [condition, hrec] with grind

@[spec] lemma reads_optionalExpression (close : Punct) :
    Reads (optionalExpression rec close) := by
  mvcgen [optionalExpression, hrec] with grind

@[spec] lemma reads_ifStatement (start : Nat) : Reads (ifStatement rec start) := by
  mvcgen [ifStatement, hrec] with grind

@[spec] lemma reads_overMembers (start : Nat) {head : Node} (h : Agrees text head) :
    Reads (overMembers rec start head) := by
  mvcgen [overMembers, hrec] with grind

@[spec] lemma reads_loopResources? : Reads (loopResources? rec) := by
  mvcgen [loopResources?, hrec] with grind

@[spec] lemma reads_forStatement (start : Nat) : Reads (forStatement rec start) := by
  mvcgen [forStatement, hrec] with grind

@[spec] lemma reads_doStatement (start : Nat) : Reads (doStatement rec start) := by
  mvcgen [doStatement, hrec] with grind

@[spec] lemma reads_caseStatements : Reads (caseStatements rec) := by
  mvcgen [caseStatements, hrec] with grind

@[spec] lemma reads_switchStatement (start : Nat) : Reads (switchStatement rec start) := by
  mvcgen [switchStatement, hrec] with grind

@[spec] lemma reads_tryStatement (start : Nat) : Reads (tryStatement rec start) := by
  mvcgen [tryStatement, hrec] with grind

@[spec] lemma reads_returnStatement (start : Nat) : Reads (returnStatement rec start) := by
  mvcgen [returnStatement, hrec] with grind

/-! ### Types and namespaces -/

@[spec] lemma reads_interfaceDeclaration (start : Nat) :
    Reads (interfaceDeclaration rec start) := by
  mvcgen [interfaceDeclaration, hrec] with grind

@[spec] lemma reads_aliasDeclaration (start : Nat) :
    Reads (aliasDeclaration rec start) := by
  mvcgen [aliasDeclaration, hrec] with grind

@[spec] lemma reads_enumDeclaration (start : Nat) : Reads (enumDeclaration rec start) := by
  mvcgen [enumDeclaration, hrec] with grind

@[spec] lemma reads_namespaceDeclaration (start : Nat) :
    Reads (namespaceDeclaration rec start) := by
  mvcgen [namespaceDeclaration, hrec] with grind

/-! ### Imports and exports -/

@[spec] lemma reads_moduleSource : Reads (moduleSource rec) := by
  mvcgen [moduleSource, hrec] with grind

@[spec] lemma reads_importSource (start : Nat) (names : List String) :
    Reads (importSource rec start names) := by
  mvcgen [importSource, hrec] with grind

@[spec] lemma reads_importDeclaration (start : Nat) :
    Reads (importDeclaration rec start) := by
  mvcgen [importDeclaration, hrec] with grind

@[spec] lemma reads_defaultExport (start : Nat) {found : List Node} (h : Agrees text found) :
    Reads (defaultExport rec start found) := by
  mvcgen [defaultExport, hrec] with grind

@[spec] lemma reads_exportDeclaration (start : Nat) {found : List Node} (h : Agrees text found) :
    Reads (exportDeclaration rec start found) := by
  mvcgen [exportDeclaration, hrec] with grind

/-! ### Statements -/

@[spec] lemma reads_typedStatement? (start : Nat) (word : String) :
    Reads (typedStatement? rec start word) := by
  mvcgen [typedStatement?, hrec] with grind

@[spec] lemma reads_expressionStatement (start : Nat) :
    Reads (expressionStatement rec start) := by
  mvcgen [expressionStatement, hrec] with grind

@[spec] lemma reads_wordStatement (start : Nat) (word : String) :
    Reads (wordStatement rec start word) := by
  mvcgen [wordStatement, hrec] with grind

@[spec] lemma reads_statementReader : Reads (statementReader rec) := by
  mvcgen [statementReader, hrec] with grind

/-! ### Scripts -/

/-- One level of the grammar, given that the levels below stay in the text
and that no element is a name. -/
lemma reads_step (helement : ReadsUnnamed (rec .element)) (goal : Goal) :
    Reads (step rec goal) := by
  cases goal with
  | statement => exact reads_statementReader hrec
  | assignment => exact reads_assignmentReader hrec
  | unary => exact reads_unaryReader hrec helement
  | type => exact reads_typeReader hrec
  | pattern => exact reads_patternReader hrec
  | element => exact (reads_elementReader hrec).reads

omit hrec in
lemma reads_levels (depth : Nat) :
    (∀ goal, Reads (read depth goal)) ∧ ReadsUnnamed (read depth .element) := by
  induction depth with
  | zero => exact ⟨fun _ => reads_fail, readsUnnamed_fail⟩
  | succ depth ih => exact ⟨reads_step ih.1 ih.2, reads_elementReader ih.1⟩

omit hrec in
@[spec] lemma reads_read (depth : Nat) (goal : Goal) : Reads (read depth goal) :=
  (reads_levels depth).1 goal

omit hrec in
@[spec] lemma reads_moduleItems (depth : Nat) : Reads (moduleItems depth) := by
  mvcgen [moduleItems] with grind

end Grammar

/-- Whatever the nodes of a script record is so in the text behind a byte
order mark. -/
theorem Module.agrees_of_parse {language : Language} {text : List Char} {script : Module}
    (h : parseModule language text = .ok script) :
    Agrees (dropByteOrderMark text) script.items := by
  let chars := dropByteOrderMark text
  let _ : Subject := ⟨chars⟩
  let start := skipInterpreterLine ⟨0, chars⟩
  have hstart : start.In chars := by
    unfold start skipInterpreterLine
    split
    · exact Cursor.reaches_skipWhile _ ⟨0, chars⟩
    · exact Cursor.In.start chars
  let state : Grammar.State :=
    { token := Token.next start, lastStop := start.offset,
      context := { types := language.hasTypes, markup := language.hasMarkup } }
  have hstate : Grammar.State.In chars state := Token.in_next hstart
  unfold parseModule at h
  dsimp only at h
  split at h
  next items later hrun =>
    cases h
    have hreads := Grammar.reads_moduleItems (Grammar.depthBound chars.length)
    exact (Grammar.reads_iff.mp hreads state hstate items later hrun).2
  next => cases h

end GraphMigrate.Script
