import ReactiveMarkup.Client.Module
import ReactiveMarkup.Digest.Sha256
import ReactiveMarkup.Emission.Printer
import ReactiveMarkup.Markup.Reader
import ReactiveMarkup.Script.Parser
import ReactiveMarkup.Server.Module

/-!
# Compilation

A component is read, analyzed and turned into the text of a module. It compiles as a whole or not at
all.
-/

namespace ReactiveMarkup

open Script (Expression Statement)

/-- Embedded scripts are modules and their expressions. -/
def scriptReader : Markup.ScriptReader := ⟨Script.parseProgram?, Script.parseExpression?⟩

/-- Reads a component from its source. -/
def Component.parse (source file : String) : Except Diagnostic Component :=
  (Markup.readComponent scriptReader source.toList).mapError (·.diagnostic file source.toList)

/-- A compiled component. -/
structure Compiled where
  code : String
  mode : Mode
  analysis : Analysis
  /-- The SHA-256 digest of the code. -/
  hash : String
  hydration : List HydrationSlot

/-- The module of an analyzed component. -/
def Analyzed.generate (a : Analyzed) (options : Options) : Generated :=
  match options.mode with
  | .client => Client.generate a.component a.analysis options
  | .server => Server.generate a.component a.analysis options

/-- Compiles a component that has been read. -/
def Component.compile (component : Component) (options : Options) : Compiled :=
  let analyzed := component.analyze options.eventMarker
  let generated := analyzed.generate options
  let code := generated.code.print
  ⟨code, options.mode, analyzed.analysis, Digest.sha256Hex code, generated.hydration⟩

/-- Compiles a component from its source. -/
def compile (source : String) (options : Options) : Except Diagnostic Compiled :=
  (Component.parse source options.filePath).map (·.compile options)

/-- The client and the server module of a component. -/
structure CompiledTargets where
  client : Compiled
  server : Compiled

/-- Compiles a component for both targets. -/
def compileTargets (source : String) (options : Options) : Except Diagnostic CompiledTargets := do
  let client ← compile source { options with mode := .client }
  let server ← compile source { options with mode := .server }
  return ⟨client, server⟩

/-- Parses a program that starts at a byte offset of a component; its nodes are numbered from
`nextId` on. -/
def parseProgram (code : String) (offset nextId : Nat) (file source : String) :
    Except Diagnostic (List Statement × Nat) :=
  match Script.parseProgram? code.toList nextId with
  | some result => .ok result
  | none => .error (.ofFault (.rejected .program) file source.toList offset)

/-- Parses an expression that starts at a byte offset of a component; its nodes are numbered from
`nextId` on. -/
def parseExpression (code : String) (offset nextId : Nat) (file source : String) :
    Except Diagnostic (Expression × Nat) :=
  match Script.parseExpression? code.toList nextId with
  | some result => .ok result
  | none => .error (.ofFault (.rejected .expression) file source.toList offset)

/-- Parses the expression at a byte offset of a component, just behind an opening brace. -/
def parseExpressionAt (source : String) (offset nextId : Nat) (file : String) :
    Except Diagnostic Markup.Interpolated :=
  (Markup.readExpressionAt scriptReader source.toList offset nextId).mapError
    (·.diagnostic file source.toList)

end ReactiveMarkup
