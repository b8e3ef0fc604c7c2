import ReactiveMarkup.Emission.Literal
import ReactiveMarkup.Emission.Vocabulary
import ReactiveMarkup.Reactivity.Analysis
import ReactiveMarkup.Text.Layout

/-!
# Notification of mutations

In a client module, an assignment or update of a root name that the markup or a reactive
declaration reads is followed by a call that notifies the name: the mutation becomes a sequence of
itself and the call, between parentheses.
-/

namespace ReactiveMarkup.Client

open Script (Expression Statement)

/-- The call that notifies some names. -/
def notification (names : List String) : Expression :=
  .call (.identifier Vocabulary.update)
    [.verbatim ("[" ++ Text.commaSeparated (names.map Emission.quote) ++ "]") []] false

/-- A mutation followed by its notification. -/
def notified (mutation : Expression) (names : List String) : Expression :=
  .parenthesized (.sequence [mutation, notification names])

/-- The names that an expression writes and whose change must be notified. -/
def notifiedNames (tree : ScopeTree) (invalidated : NameSet) (e : Expression) (scope : ScopeId) :
    List String :=
  e.mutatedNames.filter fun name => invalidated.contains name && tree.isRootOrFree scope name

/-- Puts the notification behind an expression that needs one. -/
def notifyStep (tree : ScopeTree) (invalidated : NameSet) (e : Expression) (scope : ScopeId) :
    Step :=
  match notifiedNames tree invalidated e scope with
  | [] => .descend
  | name :: names => .replace (notified e (name :: names))

/-- `notifyStep` as a visitor without a state. -/
def notifier (tree : ScopeTree) (invalidated : NameSet) (e : Expression) (scope : ScopeId)
    (state : Unit) : Step × Unit :=
  (notifyStep tree invalidated e scope, state)

/-- A script with notifications. -/
def notifyScript (a : Analysis) (script : List Statement) : List Statement :=
  (transformStatements a.scopes (notifier a.scopes a.invalidated) script ⟨.start, ()⟩).1

/-- A template expression with notifications. -/
def notifyTemplate (a : Analysis) (e : Expression) : Expression :=
  (transformExpression a.scopes (notifier a.scopes a.invalidated) e ⟨.start, ()⟩).1

end ReactiveMarkup.Client
