import Localization.Proofs.Script.Grammar.Expressions
import Localization.Script.Grammar.Statements

/-! Statements are laid apart, given that the rules of the grammar are, and so is a whole script: the
rules are by induction on how deeply they nest. -/

namespace Localization.Script

open Reader

namespace Grammar

variable {g : Grammar}

@[simp] theorem opens_otherNode (start : Nat) (ts : List Tree) (n : Nat) :
    opens n (other start ts) = opens n ts := by
  simp [other]

/-! Declarations. -/

theorem orderly_declarator (hg : g.Orderly) (m : Mode) : (declarator g m).Orderly :=
  .bind (hg _) fun _ => .after (forward_mark _).optionally.discard fun _ =>
    .bind (orderly_annotated hg) fun _ => .bind (.listOf (.seqRight (forward_mark _) (hg _))) fun _ =>
    .pure (by simp; omega)

theorem forward_declarationKeyword : declarationKeyword.Forward := by
  have husing : Forward (discard (optionally (keyword "await")) *> keyword "using" *>
      (do check !(← newlineAhead))) :=
    ((forward_keyword _).optionally.discard.seqRight (forward_keyword _)).seqRight
      (forward_newlineAhead.bind fun _ => forward_check _)
  exact (forward_keyword _).orElse ((forward_keyword _).orElse
    (((forward_keyword _).orElse husing).bind fun _ => forward_wordAhead.bind fun _ =>
      (forward_markAhead _).bind fun _ => (forward_markAhead _).bind fun _ => forward_check _))

theorem orderly_declarations (hg : g.Orderly) (m : Mode) : (declarations g m).Orderly :=
  .after forward_here fun _ => .after forward_declarationKeyword fun _ =>
    .bind (orderly_declarator hg m) fun _ =>
    .bind (.many (.seqRight (forward_mark _) (orderly_declarator hg m)) _) fun _ => .pure (by simp)

theorem forward_dottedName : (dottedName g).Forward :=
  forward_word.discard.bind fun _ => (((forward_mark _).seqRight forward_word).many _).discard

theorem orderly_externalName : externalName.Orderly :=
  orderly_stringLiteral.orElse (.after forward_word fun _ => .pure (by intro n; split <;> simp))

theorem forward_namesEnd : namesEnd.Forward :=
  (forward_markAhead _).bind fun _ => (forward_markAhead _).bind fun _ => forward_check _

theorem orderly_plainName : plainName.Orderly :=
  .bind orderly_externalName fun _ => .after forward_namesEnd fun _ => .pure (by simp)

theorem orderly_renamedName : renamedName.Orderly :=
  .bind orderly_externalName fun _ => .after (forward_keyword _) fun _ =>
    .bind orderly_externalName fun _ => .after forward_namesEnd fun _ => .pure (by simp)

theorem forward_typeKeyword : typeKeyword.Forward := (forward_keyword _).orElse (forward_keyword _)

theorem orderly_specifier {kind : Kind} (harguments : kind ≠ .arguments)
    (htemplate : kind ≠ .template) (hcall : kind ≠ .call) : (specifier kind).Orderly :=
  .after forward_here fun _ => .bind (orderly_plainName.orElse (orderly_renamedName.orElse
    (.orElse (.seqRight forward_typeKeyword orderly_plainName)
      (.seqRight forward_typeKeyword orderly_renamedName)))) fun _ =>
    .pure (by simp [harguments, htemplate, hcall])

theorem forward_importAttributes (hg : g.Orderly) : (importAttributes g).Forward :=
  ((forward_keyword _).orElse (forward_keywordHere _)).bind fun _ =>
    (orderly_objectLiteral hg).forward.discard

theorem orderly_namespaceClause : namespaceClause.Orderly :=
  .after forward_here fun _ => .after (forward_mark _) fun _ => .after (forward_keyword _) fun _ =>
    .bind orderly_identifier fun _ => .pure (by simp)

theorem orderly_namedClause : (namedClause g).Orderly :=
  .after (forward_mark _) fun _ =>
    .bind (.sepBy (orderly_specifier (by decide) (by decide) (by decide)) _ _) fun _ =>
    .after (forward_mark _) fun _ => .pure (by simp)

theorem orderly_importClause : (importClause g).Orderly :=
  orderly_namespaceClause.orElse (orderly_namedClause.orElse
    (.after orderly_identifier.forward.discard fun _ => .orElse
      (.seqRight (forward_mark _) (orderly_namespaceClause.orElse orderly_namedClause))
      (.pure (by simp))))

theorem orderly_importedNames : (importedNames g).Orderly :=
  .bind orderly_importClause fun _ => .after (forward_keyword _) fun _ => .pure (by simp)

theorem orderly_importStatement (hg : g.Orderly) : (importStatement g).Orderly :=
  .after forward_here fun _ => .after (forward_keyword _) fun _ =>
    .bind (orderly_importedNames.orElse
      (.orElse (.seqRight forward_typeKeyword orderly_importedNames) (.pure (by simp)))) fun _ =>
    .bind orderly_stringLiteral fun _ =>
    .after (forward_importAttributes hg).optionally.discard fun _ => .after forward_semicolon fun _ =>
    .pure (by simp)

theorem orderly_importAlias : (importAlias g).Orderly := by
  have hrequired : Forward (do
      keyword "require"
      mark "("
      discard stringLiteral
      mark ")") :=
    (forward_keyword _).bind fun _ => (forward_mark _).bind fun _ =>
      orderly_stringLiteral.forward.discard.bind fun _ => forward_mark _
  exact .after forward_here fun _ => .after (forward_keyword _) fun _ =>
    .after (forward_modifierOf _).optionally.discard fun _ =>
    .after orderly_identifier.forward.discard fun _ => .after (forward_mark _) fun _ =>
    .after (hrequired.orElse forward_dottedName) fun _ => .after forward_semicolon fun _ =>
    .pure (by simp)

theorem orderly_enumeration (hg : g.Orderly) : (enumeration g).Orderly := by
  have hmember : Reader.Orderly (do
      let name ← g.propertyName
      let value ← listOf (mark "=" *> g.assignment)
      return other name.start (name :: value)) :=
    .bind (orderly_propertyName hg) fun _ => .bind (.listOf (.seqRight (forward_mark _) (hg _)))
      fun _ => .pure (by simp)
  exact .after forward_here fun _ => .after (forward_keyword _).optionally.discard fun _ =>
    .after (forward_keyword _) fun _ => .after forward_word.discard fun _ =>
    .after (forward_mark _) fun _ => .bind (.sepBy hmember _ _) fun _ => .after (forward_mark _)
    fun _ => .pure (by simp)

theorem orderly_interface (hg : g.Orderly) : (interface g).Orderly :=
  .after forward_here fun _ => .after (forward_keyword _) fun _ => .after forward_word.discard fun _ =>
    .bind (.listOf (orderly_typeParameters hg)) fun _ =>
    .bind (.orElse (.seqRight (forward_keyword _) (Orderly.sepBy (hg _) _ _)) (.pure (by simp)))
    fun _ =>
    .bind (orderly_objectType hg) fun _ => .pure (by simp; omega)

theorem orderly_typeAlias (hg : g.Orderly) : (typeAlias g).Orderly :=
  .after forward_here fun _ => .after (forward_keyword _) fun _ => .after forward_word.discard fun _ =>
    .bind (.listOf (orderly_typeParameters hg)) fun _ => .after (forward_mark _) fun _ =>
    .bind (hg _) fun _ => .after forward_semicolon fun _ => .pure (by simp)

theorem orderly_namespaceBlock (hg : g.Orderly) : (namespaceBlock g).Orderly := by
  refine .after forward_here fun _ => .after ((forward_keyword _).orElse (forward_keyword _)) fun _ =>
    .after forward_newlineAhead fun _ => .after (forward_check _) fun _ =>
    .after (orderly_stringLiteral.forward.discard.orElse forward_dottedName) fun _ =>
    .bind (.listOf (orderly_block hg)) fun body => ?_
  dsimp only
  split
  · exact .after forward_semicolon fun _ => .pure (by simp)
  · exact .pure (by simp)

theorem orderly_declaration (hg : g.Orderly) : (declaration g).Orderly := by
  have hvariables : Reader.Orderly (do
      let ds ← declarations g {}
      semicolon
      return ds) :=
    .bind (orderly_declarations hg _) fun _ => .after forward_semicolon fun _ => .pure (by simp)
  have hambient : Reader.Orderly (do
      let start ← here
      keyword "declare"
      check !(← newlineAhead)
      let body ← (keyword "global" *> g.block) <|> g.statement
      return other start [body]) :=
    .after forward_here fun _ => .after (forward_keyword _) fun _ => .after forward_newlineAhead fun _ =>
      .after (forward_check _) fun _ =>
      .bind (.orElse (.seqRight (forward_keyword _) (orderly_block hg)) (hg _)) fun _ =>
      .pure (by simp)
  exact (orderly_enumeration hg).orElse (hvariables.orElse ((orderly_functionExpression hg).orElse
    ((orderly_classExpression hg).orElse ((orderly_interface hg).orElse
      ((orderly_typeAlias hg).orElse ((orderly_namespaceBlock hg).orElse hambient))))))

theorem forward_exportSource (hg : g.Orderly) : (exportSource g).Forward :=
  (forward_keyword _).bind fun _ => orderly_stringLiteral.forward.discard.bind fun _ =>
    (forward_importAttributes hg).optionally.discard

theorem forward_exportedNames (hg : g.Orderly) : (exportedNames g).Forward := by
  have hall : Forward (do
      mark "*"
      discard (optionally (keyword "as" *> externalName))
      exportSource g) :=
    (forward_mark _).bind fun _ =>
      ((forward_keyword _).seqRight orderly_externalName.forward).optionally.discard.bind fun _ =>
      forward_exportSource hg
  have hsome : Forward (do
      mark "\x7b"
      discard (g.commaList (specifier .other))
      mark "\x7d"
      discard (optionally (exportSource g))) :=
    (forward_mark _).bind fun _ =>
      (Orderly.sepBy (orderly_specifier (by decide) (by decide) (by decide)) _ _).forward.discard.bind
      fun _ => (forward_mark _).bind fun _ => (forward_exportSource hg).optionally.discard
  exact (forward_keyword _).optionally.discard.bind fun _ => (hall.orElse hsome).bind fun _ =>
    forward_semicolon

theorem orderly_expressionEnd (hg : g.Orderly) : (expressionEnd g).Orderly :=
  .bind (hg _) fun _ => .after forward_semicolon fun _ => .pure (by simp)

theorem orderly_exportBody (hg : g.Orderly) (start : Nat) : (exportBody g start).Orderly := by
  refine .orElse ?standard (.orElse ?assigned (.orElse ?global (orderly_importAlias.orElse
    ((orderly_declaration hg).orElse ?names))))
  case standard =>
    exact .after (forward_keyword _) fun _ => (orderly_functionExpression hg).orElse
      ((orderly_classExpression hg).orElse ((orderly_interface hg).orElse
        (orderly_expressionEnd hg)))
  case assigned =>
    exact .after (forward_mark _) fun _ => orderly_expressionEnd hg
  case global =>
    exact .after (forward_keyword _) fun _ => .after (forward_keyword _) fun _ =>
      .after forward_word.discard fun _ => .after forward_semicolon fun _ => .pure (by simp)
  case names =>
    exact .after (forward_exportedNames hg) fun _ => .pure (by simp)

theorem orderly_exportStatement (hg : g.Orderly) : (exportStatement g).Orderly :=
  .after forward_here fun start => .bind (.many (orderly_decorator hg) _) fun _ =>
    .after (forward_keyword _) fun _ => .bind (orderly_exportBody hg start) fun _ => .pure (by simp)

/-! Control flow. -/

theorem orderly_inParentheses (hg : g.Orderly) : (inParentheses g).Orderly :=
  .after (forward_mark _) fun _ => .bind (hg _) fun _ => .after (forward_mark _) fun _ =>
    .pure (by simp)

theorem orderly_ranging (hg : g.Orderly) {target : Reader Tree} (htarget : target.Orderly) :
    (ranging g target).Orderly :=
  .bind htarget fun _ => .after ((forward_keyword _).orElse (forward_keyword _)) fun _ =>
    .bind (hg _) fun _ => .after (forward_mark _) fun _ => .pure (by simp)

theorem orderly_forHead (hg : g.Orderly) : (forHead g).Orderly := by
  refine .after (forward_mark _) fun _ => (orderly_ranging hg
    (.seqRight forward_declarationKeyword (hg _))).orElse (.orElse ?parts (orderly_ranging hg (hg _)))
  case parts =>
    exact .bind (.listOf ((orderly_declarations hg _).orElse (hg _))) fun _ =>
      .after (forward_mark _) fun _ => .bind (.listOf (hg _)) fun _ => .after (forward_mark _) fun _ =>
      .bind (.listOf (hg _)) fun _ => .after (forward_mark _) fun _ => .pure (by simp; omega)

theorem orderly_switchCase (hg : g.Orderly) : (switchCase g).Orderly := by
  have hcase : Reader.Orderly (keyword "case" *> listOf g.expression) :=
    .seqRight (forward_keyword _) (Orderly.listOf (hg _))
  have hstandard : Reader.Orderly (keyword "default" *> pure ([] : List Tree)) :=
    .seqRight (forward_keyword _) (.pure (by simp))
  exact .after forward_here fun _ => .bind (hcase.orElse hstandard) fun _ =>
    .after (forward_mark _) fun _ => .bind (.many (hg _) _) fun _ => .pure (by simp)

theorem orderly_ifStatement (hg : g.Orderly) (start : Nat) : (ifStatement g start).Orderly :=
  .after (forward_keyword _) fun _ => .bind (orderly_inParentheses hg) fun _ => .bind (hg _) fun _ =>
    .bind (.listOf (.seqRight (forward_keyword _) (hg _))) fun _ => .pure (by simp; omega)

theorem orderly_forStatement (hg : g.Orderly) (start : Nat) : (forStatement g start).Orderly :=
  .after (forward_keyword _) fun _ => .after (forward_keyword _).optionally.discard fun _ =>
    .bind (orderly_forHead hg) fun _ => .bind (hg _) fun _ => .pure (by simp)

theorem orderly_guarded (hg : g.Orderly) (w : String) (start : Nat) :
    (guarded g w start).Orderly :=
  .after (forward_keyword _) fun _ => .bind (orderly_inParentheses hg) fun _ => .bind (hg _) fun _ =>
    .pure (by simp)

theorem orderly_doStatement (hg : g.Orderly) (start : Nat) : (doStatement g start).Orderly :=
  .after (forward_keyword _) fun _ => .bind (hg _) fun _ => .after (forward_keyword _) fun _ =>
    .bind (orderly_inParentheses hg) fun _ => .after (forward_mark _).optionally.discard fun _ =>
    .pure (by simp)

theorem orderly_returned (hg : g.Orderly) : (returned g).Orderly := by
  refine .after forward_newlineAhead fun broken => ?_
  split
  · exact .pure (by simp)
  · exact Orderly.listOf (hg _)

theorem orderly_returnStatement (hg : g.Orderly) (start : Nat) :
    (returnStatement g start).Orderly :=
  .after (forward_keyword _) fun _ => .bind (orderly_returned hg) fun _ =>
    .after forward_semicolon fun _ => .pure (by simp)

theorem orderly_throwStatement (hg : g.Orderly) (start : Nat) : (throwStatement g start).Orderly :=
  .after (forward_keyword _) fun _ => .bind (orderly_expressionEnd hg) fun _ => .pure (by simp)

theorem orderly_jump (start : Nat) : (jump start).Orderly := by
  have hlabel : Forward (do check !(← newlineAhead); word) :=
    forward_newlineAhead.bind fun _ => (forward_check _).bind fun _ => forward_word
  exact .after forward_word.discard fun _ => .after hlabel.optionally.discard fun _ =>
    .after forward_semicolon fun _ => .pure (by simp)

theorem orderly_debuggerStatement (start : Nat) : (debuggerStatement start).Orderly :=
  .after (forward_keyword _) fun _ => .after forward_semicolon fun _ => .pure (by simp)

theorem orderly_switchStatement (hg : g.Orderly) (start : Nat) :
    (switchStatement g start).Orderly :=
  .after (forward_keyword _) fun _ => .bind (orderly_inParentheses hg) fun _ =>
    .after (forward_mark _) fun _ => .bind (.many (orderly_switchCase hg) _) fun _ =>
    .after (forward_mark _) fun _ => .pure (by simp)

theorem orderly_caught (hg : g.Orderly) : (caught g).Orderly :=
  .after (forward_mark _) fun _ => .bind (hg _) fun _ => .bind (orderly_annotated hg) fun _ =>
    .after (forward_mark _) fun _ => .pure (by simp)

theorem orderly_handler (hg : g.Orderly) : (handler g).Orderly :=
  .after (forward_keyword _) fun _ => .bind (.listOf (orderly_caught hg)) fun _ =>
    .bind (orderly_block hg) fun _ => .pure (by simp)

theorem orderly_tryStatement (hg : g.Orderly) (start : Nat) : (tryStatement g start).Orderly :=
  .after (forward_keyword _) fun _ => .bind (orderly_block hg) fun _ =>
    .bind ((orderly_handler hg).orElse (.pure (by simp))) fun _ =>
    .bind (.listOf (.seqRight (forward_keyword _) (orderly_block hg))) fun _ =>
    .pure (by simp; omega)

theorem orderly_keywordStatement (hg : g.Orderly) (start : Nat) (w : List Char) :
    (keywordStatement g start w).Orderly := by
  unfold keywordStatement
  split
  · exact orderly_ifStatement hg start
  · exact orderly_forStatement hg start
  · exact orderly_guarded hg _ start
  · exact orderly_doStatement hg start
  · exact orderly_returnStatement hg start
  · exact orderly_throwStatement hg start
  · exact orderly_jump start
  · exact orderly_jump start
  · exact orderly_debuggerStatement start
  · exact orderly_guarded hg _ start
  · exact orderly_switchStatement hg start
  · exact orderly_tryStatement hg start
  · exact (orderly_importStatement hg).orElse orderly_importAlias
  · exact orderly_exportStatement hg
  · exact orderly_declaration hg

theorem orderly_labeled (hg : g.Orderly) : (labeled g).Orderly :=
  .bind orderly_identifier fun _ => .after (forward_mark _) fun _ => .bind (hg _) fun _ =>
    .pure (by simp)

theorem orderly_expressionStatement (hg : g.Orderly) : (expressionStatement g).Orderly :=
  .bind (orderly_expressionEnd hg) fun _ => .pure (by simp)

theorem orderly_statementRule (hg : g.Orderly) : (statementRule g).Orderly := by
  refine .after forward_here fun start => .after forward_get fun c => ?_
  split
  · exact orderly_block hg
  · exact .after (forward_mark _) fun _ => .pure (by simp)
  · exact (orderly_exportStatement hg).orElse (orderly_classExpression hg)
  · exact .after forward_wordAhead fun w => (orderly_keywordStatement hg start w).orElse
      ((orderly_labeled hg).orElse (orderly_expressionStatement hg))

end Grammar

end Localization.Script
