import ReactiveMarkup.Proofs.Position

/-!
# Lexical scoping, as a rule of its own

Which names a function, a block or the top level binds is said here without the scope resolver:

* a function binds its parameters;
* a function and a block bind the `let`, `const` and function names that stand in them with no
  other function or block in between (`lexicalNames`);
* a function also binds the `var` names inside it with no other function in between (`varNames`).

A position is surrounded by the frames of the functions and blocks on the way to it
(`Node.frames`). A name that none of them binds belongs to the top level or to nobody
(`Node.RootOrFree`).
-/

namespace ReactiveMarkup.Script

/-- Whether a declaration stays in the scope where it stands. -/
def DeclarationKind.isLexical : DeclarationKind → Bool
  | .var => false
  | .lexical => true
  | .constant => true

/-- The names that a statement binds in the scope where it stands. -/
def Statement.lexicalNames : Statement → List String
  | .declaration kind items =>
    if kind.isLexical then items.flatMap fun d => d.pattern.names else []
  | .function f => f.signature.name.toList
  | .conditional _ consequent none => consequent.lexicalNames
  | .conditional _ consequent (some alternate) =>
    consequent.lexicalNames ++ alternate.lexicalNames
  | .labeled _ body => body.lexicalNames
  | .expression _ => []
  | .block _ _ => []
  | .result _ => []
  | .verbatim _ _ => []
termination_by structural s => s

mutual

/-- The names that a statement binds in the function where it stands. -/
def Statement.varNames : Statement → List String
  | .declaration kind items =>
    if kind.isLexical then [] else items.flatMap fun d => d.pattern.names
  | .block _ body => Statement.allVarNames body
  | .conditional _ consequent none => consequent.varNames
  | .conditional _ consequent (some alternate) => consequent.varNames ++ alternate.varNames
  | .labeled _ body => body.varNames
  | .function _ => []
  | .expression _ => []
  | .result _ => []
  | .verbatim _ _ => []
termination_by structural s => s

/-- The names that some statements bind in the function where they stand. -/
def Statement.allVarNames : List Statement → List String
  | [] => []
  | s :: rest => s.varNames ++ Statement.allVarNames rest
termination_by structural ss => ss

end

theorem Statement.allVarNames_eq (body : List Statement) :
    Statement.allVarNames body = body.flatMap Statement.varNames := by
  induction body with
  | nil => rfl
  | cons s rest ih => rw [Statement.allVarNames, ih, List.flatMap_cons]

namespace Node

/-- `Statement.lexicalNames` for every kind of node. -/
def lexicalNames : Node → List String
  | .script body => body.flatMap Statement.lexicalNames
  | .statement s => s.lexicalNames
  | .declarator kind d => if kind.isLexical then d.pattern.names else []
  | .function _ => []
  | .expression _ => []

/-- `Statement.varNames` for every kind of node. -/
def varNames : Node → List String
  | .script body => body.flatMap Statement.varNames
  | .statement s => s.varNames
  | .declarator kind d => if kind.isLexical then [] else d.pattern.names
  | .function _ => []
  | .expression _ => []

/-- The names that a function or block binds for what is inside it. -/
def frame? : Node → Option (List String)
  | .function f =>
    some (f.signature.paramNames ++ (ofFunction f).flatMap lexicalNames ++
      (ofFunction f).flatMap varNames)
  | .statement (.block _ body) => some (body.flatMap Statement.lexicalNames)
  | _ => none

/-- What the functions and blocks around a position bind, innermost first. -/
def frames : Node → List Nat → List (List String)
  | _, [] => []
  | x, i :: rest => ((x.children[i]?.map (·.frames rest)).getD []) ++ x.frame?.toList

/-- Whether a name, seen from a position, belongs to the top level or is free. -/
def RootOrFree (x : Node) (position : List Nat) (name : String) : Prop :=
  ∀ frame ∈ x.frames position, name ∉ frame

instance (x : Node) (position : List Nat) (name : String) :
    Decidable (x.RootOrFree position name) :=
  inferInstanceAs (Decidable (∀ frame ∈ x.frames position, name ∉ frame))

/-! ## The names of a node from those of its children -/

/-- The names that a node itself binds in the scope where it stands. -/
def ownLexical : Node → List String
  | .statement (.function f) => f.signature.name.toList
  | .declarator kind d => if kind.isLexical then d.pattern.names else []
  | _ => []

/-- The names that a node itself binds in the function where it stands. -/
def ownVar : Node → List String
  | .declarator kind d => if kind.isLexical then [] else d.pattern.names
  | _ => []

theorem lexicalNames_ofExpression (e : Expression) :
    (ofExpression e).flatMap lexicalNames = [] := by
  cases e <;> simp [ofExpression, lexicalNames, List.flatMap_map]

theorem varNames_ofExpression (e : Expression) : (ofExpression e).flatMap varNames = [] := by
  cases e <;> simp [ofExpression, varNames, List.flatMap_map]

/-- A node without a scope of its own binds what it declares itself and what its children bind. -/
theorem lexicalNames_eq {x : Node} (h : x.id? = none) :
    x.lexicalNames = x.ownLexical ++ x.children.flatMap lexicalNames := by
  cases x with
  | script body => simp [lexicalNames, ownLexical, children, List.flatMap_map]
  | statement s =>
    cases s with
    | declaration kind items =>
      cases kind <;>
        simp [lexicalNames, ownLexical, children, ofStatement, Statement.lexicalNames,
          List.flatMap_map, DeclarationKind.isLexical]
    | conditional test consequent alternate =>
      cases alternate <;>
        simp [lexicalNames, ownLexical, children, ofStatement, Statement.lexicalNames]
    | block id body => simp [id?] at h
    | _ =>
      simp [lexicalNames, ownLexical, children, ofStatement, Statement.lexicalNames,
        List.flatMap_map]
  | declarator kind d => simp [lexicalNames, ownLexical, children, List.flatMap_map]
  | function f => simp [id?] at h
  | expression e => simp [lexicalNames, ownLexical, children, lexicalNames_ofExpression]

/-- A node other than a function binds the `var` names that it declares itself and those that its
children bind; blocks do not keep them. -/
theorem varNames_eq {x : Node} (h : ∀ f, x ≠ .function f) :
    x.varNames = x.ownVar ++ x.children.flatMap varNames := by
  cases x with
  | script body => simp [varNames, ownVar, children, List.flatMap_map]
  | statement s =>
    cases s with
    | declaration kind items =>
      cases kind <;>
        simp [varNames, ownVar, children, ofStatement, Statement.varNames, List.flatMap_map,
          DeclarationKind.isLexical]
    | conditional test consequent alternate =>
      cases alternate <;> simp [varNames, ownVar, children, ofStatement, Statement.varNames]
    | block id body =>
      simp [varNames, ownVar, children, ofStatement, Statement.varNames,
        Statement.allVarNames_eq, List.flatMap_map]
    | _ => simp [varNames, ownVar, children, ofStatement, Statement.varNames, List.flatMap_map]
  | declarator kind d => simp [varNames, ownVar, children, List.flatMap_map]
  | function f => exact absurd rfl (h f)
  | expression e => simp [varNames, ownVar, children, varNames_ofExpression]

end Node

end ReactiveMarkup.Script
