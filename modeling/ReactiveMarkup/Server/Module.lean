import ReactiveMarkup.Server.Elision
import ReactiveMarkup.Server.Template

/-!
# Server modules

A server module is a function that runs the script, runs the reactive declarations once, and
returns the rendered markup.
-/

namespace ReactiveMarkup.Server

open Emission (Statement Expression Module TemplatePart)

/-- The function that escapes text for markup. -/
def escapeHelper : Statement :=
  .function Vocabulary.escape ["value"]
    [.result (.verbatim
      ("String(value).replace(/&/g, \"&amp;\").replace(/</g, \"&lt;\")" ++
        ".replace(/>/g, \"&gt;\").replace(/\"/g, \"&quot;\")"))]

/-- The server module of a component. -/
def generate (component : Component) (analysis : Analysis) (options : Options) : Generated :=
  let parts := templateParts options.eventMarker component.html
  { code :=
      ⟨undeclaredBindings analysis ++ embedScript (elideUnused component.script analysis) ++
        plainRecomputation analysis ++
        (if parts.any TemplatePart.isSlot then [escapeHelper] else []) ++
        [.result (.template parts)]⟩
    hydration := fragmentsSlots 0 0 component.html }

end ReactiveMarkup.Server
