import N8n.Workflow.Workflow

/-! # Running one node

`WorkflowExecute.runNode` of `packages/core/src/execution-engine/workflow-execute.ts`.
What the code of a node answers is an argument, `own`; `runNode` decides whether
that code runs at all and what is returned in its place.
-/

namespace N8n.Core

/-- What a node hands on: one slot per output, or nothing (`null` or `undefined`). -/
abbrev NodeOutput (Item : Type) := Option (List (Slot (List Item)))

variable {Item : Type}

end N8n.Core
