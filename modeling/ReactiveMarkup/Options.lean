/-!
# Options of a compilation
-/

namespace ReactiveMarkup

/-- Which module a component is compiled to. -/
inductive Mode
  /-- One that builds and updates a document. -/
  | client
  /-- One that renders markup as text. -/
  | server
deriving DecidableEq, Repr

/-- How a component is compiled. -/
structure Options where
  mode : Mode := .client
  /-- Whether client modules can adopt rendered nodes. -/
  hydratable : Bool := true
  /-- The file that diagnostics name. -/
  filePath : String := "Component.svelte"
  /-- What the names of event listener attributes start with. -/
  eventMarker : String := "on:"
deriving DecidableEq, Repr

end ReactiveMarkup
