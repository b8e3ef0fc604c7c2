import ReactiveMarkup.Client.Document

/-!
# Client modules

A client module is a factory. Its result can create the document of the component, update it for a
batch of changed names, and destroy it. While updates run, further notifications only queue names;
the queue is drained batch by batch.
-/

namespace ReactiveMarkup.Client

open Emission (Statement Expression Module Parameter Method)

/-- The function that queues changed names and drains the queue. -/
def dispatcher : Statement :=
  .function Vocabulary.update [Vocabulary.changed]
    [.each Vocabulary.name (.identifier Vocabulary.changed)
      [.guarded
        (.unary "!" (.callMethod (.identifier Vocabulary.pending) "includes"
          [.identifier Vocabulary.name]))
        [invoke Vocabulary.pending "push" [.identifier Vocabulary.name]]],
     .guarded (.identifier Vocabulary.dispatching) [.verbatim "return;"],
     assignTo Vocabulary.dispatching (.boolean true),
     .ensured
      [.loop (.binary (.member (.identifier Vocabulary.pending) "length") ">" (.number 0))
        [.constant Vocabulary.batch (.identifier Vocabulary.pending),
         assignTo Vocabulary.pending (.array []),
         .expression (.call (.identifier Vocabulary.recompute) [.identifier Vocabulary.batch]),
         .guarded (.identifier Vocabulary.mounted)
          [invoke Vocabulary.lifecycle "update" [.identifier Vocabulary.batch]]]]
      [assignTo Vocabulary.dispatching (.boolean false)]]

/-- The function that runs the reactive declarations that a batch concerns. -/
def recomputation (analysis : Analysis) : Statement :=
  .function Vocabulary.recompute [Vocabulary.changed, Vocabulary.initial ++ " = false"]
    (guardedRecomputation analysis Vocabulary.changed)

/-- The declarations before the script. Updates count as running until the module is set up, so
that mutations of the script itself only queue names. -/
def stateBindings (draft : Draft) : List Statement :=
  [.declare Vocabulary.pending (some (.array [])),
   .declare Vocabulary.dispatching (some (.boolean true)),
   .declare Vocabulary.mounted (some (.boolean false))] ++
    draft.bindings.map fun name => .declare name none

/-- The first run of the reactive declarations. -/
def firstRecomputation (analysis : Analysis) : List Statement :=
  if analysis.declarations.isEmpty then []
  else
    [.expression (.call (.identifier Vocabulary.recompute) [.array [], .boolean true])]

/-- The parameters of `create`. By default rendered nodes are adopted if the target has any
children. -/
def createParams (options : Options) : List Parameter :=
  ⟨Vocabulary.target, none⟩ ::
    if options.hydratable then
      [⟨Vocabulary.hydrate, some (.binary
        (.member (.member (.identifier Vocabulary.target) "childNodes") "length") ">"
        (.number 0))⟩]
    else []

/-- The object that the factory returns. -/
def lifecycle (options : Options) (draft : Draft) : Expression :=
  .object
    [⟨"create", createParams options,
        draft.create ++ [assignTo Vocabulary.mounted (.boolean true)]⟩,
     ⟨"update", [⟨Vocabulary.changed, none⟩], draft.update⟩,
     ⟨"destroy", [⟨Vocabulary.target, none⟩],
        draft.destroy.reverse ++ [assignTo Vocabulary.mounted (.boolean false)]⟩]

/-- The client module of a component. -/
def generate (component : Component) (analysis : Analysis) (options : Options) : Generated :=
  let draft := documentDraft options analysis component.html
  { code :=
      ⟨undeclaredBindings analysis ++ stateBindings draft ++
        embedScript (notifyScript analysis component.script) ++
        [recomputation analysis, dispatcher] ++ firstRecomputation analysis ++
        [assignTo Vocabulary.pending (.array []),
         assignTo Vocabulary.dispatching (.boolean false),
         .constant Vocabulary.lifecycle (lifecycle options draft),
         .result (.identifier Vocabulary.lifecycle)]⟩
    hydration := draft.hydration }

end ReactiveMarkup.Client
