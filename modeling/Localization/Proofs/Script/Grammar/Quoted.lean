import Localization.Proofs.Script.Quoted
import Localization.Script.Parse

/-! Every rule of the grammar quotes the script that it reads, given that those it refers to do. -/

namespace Localization.Script

open Reader

set_option synthInstance.maxSize 10000

variable {script : List Char}

namespace Grammar

/-- Every rule of a grammar quotes a script. -/
class Faithful (script : List Char) (g : Grammar) : Prop where
  rules : ∀ r, (g.rule r).Quoting script

variable {g : Grammar}

section Shape

variable [Faithful script g]

instance (r : Rule) : (g.rule r).Quoting script := Faithful.rules r

instance : g.statement.Quoting script := Faithful.rules .statement

instance : g.expression.Quoting script := Faithful.rules (.expression {})

instance : g.assignment.Quoting script := Faithful.rules (.assignment {})

instance : g.type.Quoting script := Faithful.rules .type

instance : g.pattern.Quoting script := Faithful.rules .pattern

instance {α : Type} [Quotable α] (p : Reader α) [p.Quoting script] : (g.many p).Quoting script :=
  quoting_many p g.fuel

instance {α : Type} [Quotable α] (p : Reader α) [p.Quoting script] :
    (g.commaList p).Quoting script :=
  inferInstanceAs ((sepBy g.fuel "," p).Quoting script)

instance : g.typeAnnotation.Quoting script := by
  unfold typeAnnotation
  infer_instance

instance : g.comments.Quoting script := by
  unfold comments
  have hblanks : Quoting script (modify fun c : Cursor =>
      let blanks := c.rest.takeWhile isSpace
      (⟨c.rest.drop blanks.length, c.offset + blanks.length⟩ : Cursor)) :=
    quoting_modify fun _ => List.drop_suffix _ _
  refine @quoting_many _ _ _ _ _ ?_
  refine .bind fun c _ => .bind fun _ _ => .bind fun _ _ => .bind fun _ _ => ?_
  split <;> infer_instance

instance : g.propertyName.Quoting script := by
  unfold propertyName
  refine .bind fun start _ => .bind fun c _ => ?_
  split <;> infer_instance

instance (start : Nat) : (g.spread start).Quoting script := by
  unfold spread
  infer_instance

instance : g.argumentList.Quoting script := by
  unfold argumentList
  infer_instance

instance (words : List String) : (modifierOf words).Quoting script := by
  unfold modifierOf
  infer_instance

end Shape

/-! Types. -/

section Types

variable [Faithful script g]

instance (start : Nat) (ts : List Tree) [Quoted script ts] : Quoted script (parts start ts) :=
  quoted_node .other start ts

instance : g.typeArguments.Quoting script := by
  unfold typeArguments
  infer_instance

instance : g.expressionTypeArguments.Quoting script := by
  unfold expressionTypeArguments
  refine .bind fun t _ => .bind fun c _ => ?_
  split <;> infer_instance

instance : g.typeParameters.Quoting script := by
  unfold typeParameters
  infer_instance

instance : g.parameter.Quoting script := by
  unfold parameter
  infer_instance

instance : g.parameters.Quoting script := by
  unfold parameters
  infer_instance

instance : g.signature.Quoting script := by
  unfold signature
  infer_instance

instance : g.functionType.Quoting script := by
  unfold functionType
  infer_instance

instance : g.indexKey.Quoting script := by
  unfold indexKey
  infer_instance

instance : g.typeMember.Quoting script := by
  unfold typeMember typeMember.indexed typeMember.named
  infer_instance

instance : g.objectType.Quoting script := by
  unfold objectType
  infer_instance

instance : g.tupleElement.Quoting script := by
  unfold tupleElement
  infer_instance

instance : g.templateType.Quoting script := by
  unfold templateType
  have hpart : Reader.Quoting script (do
      let c ← get
      match c.rest with
      | '$' :: '{' :: _ => do
        advance 2
        let t ← g.type
        mark "\x7d"
        return [t]
      | '\\' :: _ => advance 2; return []
      | x :: _ => check (x ≠ '\x60'); advance 1; return []
      | [] => failure) := by
    refine .bind fun c _ => ?_
    split <;> infer_instance
  infer_instance

instance : g.typeReference.Quoting script := by
  unfold typeReference
  infer_instance

instance : g.primaryType.Quoting script := by
  unfold primaryType primaryType.importType
  refine .bind fun start _ => .bind fun c _ => ?_
  split <;> infer_instance

instance : g.arrayType.Quoting script := by
  unfold arrayType
  infer_instance

instance (fuel : Nat) : (g.operatorType fuel).Quoting script := by
  induction fuel with
  | zero => exact inferInstanceAs ((failure : Reader Tree).Quoting script)
  | succ fuel ih =>
    unfold operatorType
    infer_instance

instance (m : Char) (p : Reader Tree) [p.Quoting script] : (g.chained m p).Quoting script := by
  unfold chained
  have hsingle : Reader.Quoting script (do
      match ← ahead with
      | a :: b :: _ => check (a == m && b ≠ m)
      | _ => failure
      skip 1) := by
    refine .bind fun cs _ => ?_
    split <;> infer_instance
  infer_instance

instance : g.unionType.Quoting script := by
  unfold unionType
  infer_instance

instance : g.predicateType.Quoting script := by
  unfold predicateType
  infer_instance

instance : g.typeRule.Quoting script := by
  unfold typeRule
  infer_instance

end Types

/-! Patterns, functions, and the members of objects and classes. -/

section Members

variable [Faithful script g]

instance : identifier.Quoting script := by
  unfold identifier
  infer_instance

instance : g.patternWithDefault.Quoting script := by
  unfold patternWithDefault
  infer_instance

instance (start : Nat) : (g.restPattern start).Quoting script := by
  unfold restPattern
  infer_instance

instance : g.patternMember.Quoting script := by
  unfold patternMember
  infer_instance

instance : g.patternElement.Quoting script := by
  unfold patternElement
  refine .bind fun next _ => ?_
  split <;> infer_instance

instance : g.patternRule.Quoting script := by
  unfold patternRule
  refine .bind fun start _ => .bind fun c _ => ?_
  split <;> infer_instance

instance : g.block.Quoting script := by
  unfold block
  infer_instance

instance (start : Nat) : (g.functionTail start).Quoting script := by
  unfold functionTail
  infer_instance

instance : g.functionExpression.Quoting script := by
  unfold functionExpression
  infer_instance

instance : g.objectMember.Quoting script := by
  unfold objectMember
  infer_instance

instance : g.objectLiteral.Quoting script := by
  unfold objectLiteral
  infer_instance

/-- The members of a name come from the script if the names do. -/
instance (name : Tree) (members : List Tree) [Quoted script name]
    [hmembers : Quoted script members] :
    Quoted script (members.foldl (fun t p => Tree.node .member t.start [t, p]) name) := by
  have hall := hmembers.holds
  clear hmembers
  induction members generalizing name with
  | nil => assumption
  | cons p members ih =>
    obtain ⟨hp, hrest⟩ := List.forall_mem_cons.mp hall
    have hp : Quoted script p := ⟨hp⟩
    exact ih (.node .member name.start [name, p]) hrest

instance : g.decorator.Quoting script := by
  unfold decorator
  refine .bind fun start _ => .bind fun _ _ => .bind fun cs _ => ?_
  split <;> infer_instance

instance : g.classMember.Quoting script := by
  unfold classMember classMember.indexed classMember.method classMember.field
  infer_instance

instance : g.classExpression.Quoting script := by
  unfold classExpression
  infer_instance

end Members

/-! Markup. -/

section Markup

variable [Faithful script g]

instance : markupName.Quoting script := by
  unfold markupName
  refine .bind fun start _ => .bind fun c hc => ?_
  have hname : Quoted script (c.rest.takeWhile fun c => isNameChar c || c == '-') :=
    ⟨(List.takeWhile_prefix _).isInfix.trans hc.holds.isInfix⟩
  infer_instance

instance : (tagName g).Quoting script := by
  unfold tagName
  infer_instance

instance : g.markupExpression.Quoting script := by
  unfold markupExpression
  infer_instance

instance : (markupAttribute g).Quoting script := by
  unfold markupAttribute
  refine .bind fun start _ => .bind fun c _ => ?_
  split <;> infer_instance

instance : contentText.Quoting script := by
  unfold contentText
  infer_instance

instance : (content g).Quoting script := by
  unfold content
  have hpart : Reader.Quoting script (do
      match (← get).rest with
      | '<' :: cs => do
        check ((cs.dropWhile isSpace).headD '/' ≠ '/')
        let e ← g.rule .element
        return [e]
      | '{' :: _ => do
        let e ← g.markupExpression
        return [e]
      | _ => contentText) := by
    refine .bind fun c _ => ?_
    split <;> infer_instance
  infer_instance

instance : g.elementRule.Quoting script := by
  unfold elementRule
  infer_instance

end Markup

/-! Expressions. -/

section Expressions

variable [Faithful script g]

instance : g.templateLiteral.Quoting script := by
  unfold templateLiteral
  have hpart : Reader.Quoting script (do
      let c ← get
      match c.rest with
      | '$' :: '{' :: _ => do
        advance 2
        let e ← g.expression
        mark "\x7d"
        let raw ← since c
        return Tree.node .substitution c.offset [.leaf .source c.offset raw, e]
      | cs => do
        let run := templateLiteral.chunkAt cs
        check !run.isEmpty
        advance run.length
        return .leaf .chunk c.offset run) := by
    refine .bind fun c _ => ?_
    split <;> infer_instance
  infer_instance

instance : (arrayLiteral g).Quoting script := by
  unfold arrayLiteral
  have hitem : Reader.Quoting script (do
      match ← ahead with
      | ',' :: _ => skip 1; return []
      | _ => do
        let start ← here
        let e ← g.spread start <|> g.assignment
        (mark "," <|> (do check (← markAhead "]")))
        return [e]) := by
    refine .bind fun cs _ => ?_
    split <;> infer_instance
  infer_instance

instance (chain : Tree → Reader Tree)
    [∀ t : {t : Tree // quoted script t}, (chain t.1).Quoting script] :
    (newExpression g chain).Quoting script := by
  unfold newExpression
  infer_instance

instance : memberName.Quoting script := by
  unfold memberName
  infer_instance

instance (t : Tree) [Quoted script t] : (indexed g t).Quoting script := by
  unfold indexed
  infer_instance

instance (t : Tree) [Quoted script t] : (called g t).Quoting script := by
  unfold called
  infer_instance

instance (t types : Tree) [Quoted script t] [Quoted script types] :
    (calledWith g t types).Quoting script := by
  unfold calledWith
  infer_instance

instance (calls : Bool) (fuel : Nat) (t : Tree) [Quoted script t] :
    (suffixed g calls fuel t).Quoting script := by
  induction fuel generalizing t with
  | zero => exact inferInstanceAs ((pure t : Reader Tree).Quoting script)
  | succ fuel ih =>
    unfold suffixed
    refine .bind fun broken _ => .bind fun cs _ => ?_
    split <;> infer_instance

instance : (wordOperand g).Quoting script := by
  unfold wordOperand
  refine .bind fun start _ => .bind fun w _ => ?_
  split <;> infer_instance

instance : g.primaryRule.Quoting script := by
  unfold primaryRule
  refine .bind fun start _ => .bind fun c _ => ?_
  split <;> infer_instance

instance (start : Nat) (head : Reader Unit) [head.Quoting script] :
    (under g start head).Quoting script := by
  unfold under
  infer_instance

instance (start : Nat) : (operand g start).Quoting script := by
  unfold operand
  infer_instance

instance : g.unaryRule.Quoting script := by
  unfold unaryRule
  refine .bind fun start _ => .bind fun c _ => ?_
  split <;> infer_instance

instance (m : Mode) : (binaryTail g m).Quoting script := by
  unfold binaryTail
  refine .bind fun cs _ => ?_
  split <;> infer_instance

instance (m : Mode) : (binary g m).Quoting script := by
  unfold binary
  infer_instance

instance : questionMark.Quoting script := by
  unfold questionMark
  refine .bind fun cs _ => ?_
  split <;> infer_instance

instance (m : Mode) (plain : Bool) (test : Tree) [Quoted script test] :
    (branches g m plain test).Quoting script := by
  unfold branches
  infer_instance

instance (m : Mode) : (conditional g m).Quoting script := by
  unfold conditional
  infer_instance

instance (m : Mode) : (arrowBody g m).Quoting script := by
  unfold arrowBody
  refine .bind fun _ _ => .bind fun cs _ => ?_
  split <;> infer_instance

instance (m : Mode) : (arrowResult g m).Quoting script := by
  unfold arrowResult
  infer_instance

instance (m : Mode) (start : Nat) : (arrowOfParameters g m start).Quoting script := by
  unfold arrowOfParameters
  infer_instance

instance (m : Mode) (start : Nat) : (arrowOfName g m start).Quoting script := by
  unfold arrowOfName
  infer_instance

instance (m : Mode) : (arrowFunction g m).Quoting script := by
  unfold arrowFunction
  refine .bind fun start _ => .bind fun c _ => ?_
  split <;> infer_instance

instance (m : Mode) : (yieldExpression g m).Quoting script := by
  unfold yieldExpression
  infer_instance

instance (m : Mode) : (g.assignmentRule m).Quoting script := by
  have hassigned : Reader.Quoting script (do
      let left ← conditional g m
      match ← ahead with
      | '=' :: c :: _ =>
        if c == '=' || c == '>' then pure left
        else do
          mark "="
          let right ← g.rule (.assignment m)
          return .node .assignment left.start [left, right]
      | cs =>
        match compoundMark cs with
        | some n => do
          skip n
          let right ← g.rule (.assignment m)
          return .node .other left.start [left, right]
        | none => pure left) := by
    refine .bind fun left _ => .bind fun cs _ => ?_
    split
    · infer_instance
    · split <;> infer_instance
  unfold assignmentRule
  infer_instance

instance (m : Mode) : (g.expressionRule m).Quoting script := by
  unfold expressionRule
  infer_instance

end Expressions

/-! Statements. -/

section Statements

variable [Faithful script g]

instance (start : Nat) (ts : List Tree) [Quoted script ts] : Quoted script (other start ts) :=
  quoted_node .other start ts

instance (m : Mode) : (declarator g m).Quoting script := by
  unfold declarator
  infer_instance

instance : declarationKeyword.Quoting script := by
  unfold declarationKeyword
  infer_instance

instance (m : Mode) : (declarations g m).Quoting script := by
  unfold declarations
  infer_instance

instance : (dottedName g).Quoting script := by
  unfold dottedName
  infer_instance

instance : externalName.Quoting script := by
  unfold externalName
  infer_instance

instance : namesEnd.Quoting script := by
  unfold namesEnd
  infer_instance

instance : plainName.Quoting script := by
  unfold plainName
  infer_instance

instance : renamedName.Quoting script := by
  unfold renamedName
  infer_instance

instance : typeKeyword.Quoting script := by
  unfold typeKeyword
  infer_instance

instance (kind : Kind) : (specifier kind).Quoting script := by
  unfold specifier
  infer_instance

instance : (importAttributes g).Quoting script := by
  unfold importAttributes
  infer_instance

instance : namespaceClause.Quoting script := by
  unfold namespaceClause
  infer_instance

instance : (namedClause g).Quoting script := by
  unfold namedClause
  infer_instance

instance : (importClause g).Quoting script := by
  unfold importClause
  infer_instance

instance : (importedNames g).Quoting script := by
  unfold importedNames
  infer_instance

instance : (importStatement g).Quoting script := by
  unfold importStatement
  infer_instance

instance : (importAlias g).Quoting script := by
  unfold importAlias
  infer_instance

instance : (enumeration g).Quoting script := by
  unfold enumeration
  infer_instance

instance : (interface g).Quoting script := by
  unfold interface
  infer_instance

instance : (typeAlias g).Quoting script := by
  unfold typeAlias
  infer_instance

instance : (namespaceBlock g).Quoting script := by
  unfold namespaceBlock
  infer_instance

instance : (declaration g).Quoting script := by
  unfold declaration
  infer_instance

instance : (exportSource g).Quoting script := by
  unfold exportSource
  infer_instance

instance : (exportedNames g).Quoting script := by
  unfold exportedNames
  infer_instance

instance : (expressionEnd g).Quoting script := by
  unfold expressionEnd
  infer_instance

instance (start : Nat) : (exportBody g start).Quoting script := by
  unfold exportBody
  infer_instance

instance : (exportStatement g).Quoting script := by
  unfold exportStatement
  infer_instance

instance : (inParentheses g).Quoting script := by
  unfold inParentheses
  infer_instance

instance (target : Reader Tree) [target.Quoting script] : (ranging g target).Quoting script := by
  unfold ranging
  infer_instance

instance : (forHead g).Quoting script := by
  unfold forHead
  infer_instance

instance : (switchCase g).Quoting script := by
  unfold switchCase
  infer_instance

instance (start : Nat) : (ifStatement g start).Quoting script := by
  unfold ifStatement
  infer_instance

instance (start : Nat) : (forStatement g start).Quoting script := by
  unfold forStatement
  infer_instance

instance (w : String) (start : Nat) : (guarded g w start).Quoting script := by
  unfold guarded
  infer_instance

instance (start : Nat) : (doStatement g start).Quoting script := by
  unfold doStatement
  infer_instance

instance : (returned g).Quoting script := by
  unfold returned
  infer_instance

instance (start : Nat) : (returnStatement g start).Quoting script := by
  unfold returnStatement
  infer_instance

instance (start : Nat) : (throwStatement g start).Quoting script := by
  unfold throwStatement
  infer_instance

instance (start : Nat) : (jump start).Quoting script := by
  unfold jump
  infer_instance

instance (start : Nat) : (debuggerStatement start).Quoting script := by
  unfold debuggerStatement
  infer_instance

instance (start : Nat) : (switchStatement g start).Quoting script := by
  unfold switchStatement
  infer_instance

instance : (caught g).Quoting script := by
  unfold caught
  infer_instance

instance : (handler g).Quoting script := by
  unfold handler
  infer_instance

instance (start : Nat) : (tryStatement g start).Quoting script := by
  unfold tryStatement
  infer_instance

instance (start : Nat) (w : List Char) : (keywordStatement g start w).Quoting script := by
  unfold keywordStatement
  split <;> infer_instance

instance : (labeled g).Quoting script := by
  unfold labeled
  infer_instance

instance : (expressionStatement g).Quoting script := by
  unfold expressionStatement
  infer_instance

instance : (statementRule g).Quoting script := by
  unfold statementRule
  refine .bind fun start _ => .bind fun c _ => ?_
  split <;> infer_instance

end Statements

instance (r : Rule) [Faithful script g] : (body g r).Quoting script := by
  unfold body
  cases r <;> infer_instance

/-- The rules of the grammar quote every script, however deeply they nest. -/
instance faithful_rules (markup : Bool) (fuel depth : Nat) :
    Faithful script ⟨rules markup fuel depth, markup, fuel⟩ := by
  induction depth with
  | zero => exact ⟨fun _ => inferInstanceAs ((failure : Reader Tree).Quoting script)⟩
  | succ depth ih =>
    exact ⟨fun r =>
      inferInstanceAs ((body ⟨rules markup fuel depth, markup, fuel⟩ r).Quoting script)⟩

end Grammar

instance : interpreterLine.Quoting script := by
  unfold interpreterLine
  refine .bind fun c _ => ?_
  split <;> infer_instance

instance : markupComment.Quoting script := by
  unfold markupComment
  infer_instance

instance : strayToken.Quoting script := by
  unfold strayToken
  infer_instance

instance (g : Grammar) [g.Faithful script] : (statements g).Quoting script := by
  have hone : (statements.listOf1 g).Quoting script :=
    .map fun t ht u hu => List.mem_singleton.mp hu ▸ ht
  unfold statements
  infer_instance

/-- The names and the runs of strings in the tree of a script stand in the script as they are, and
no template of the tree is a leaf. -/
theorem quoted_parse (dialect : Dialect) (script : List Char) :
    quoted script (parse dialect script) := by
  unfold parse
  dsimp only
  split
  · rename_i ss d hread
    have hstatements : (statements ⟨Grammar.rules (dialect == .markup) (script.length + 1)
        (16 * (script.length + 1)), dialect == .markup, script.length + 1⟩).Quoting script :=
      inferInstance
    obtain ⟨-, hss⟩ := hstatements.reads ⟨script, 0⟩ ss d (List.suffix_refl _) hread
    have hss : Quoted script ss := ⟨hss⟩
    exact (quoted_node .other 0 ss).holds
  · exact (quoted_node .other 0 []).holds

end Localization.Script
