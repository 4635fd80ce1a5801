import ScopedEval.Heap
import ScopedEval.Inspect.Value

namespace ScopedEval

open Inspect

/-- What stands before the text of the frame around this one. The bindings come in no order of their own. -/
def Frame.inspectOpening (listing : List (Name × Value)) : String :=
  let bindings := listing.map fun (name, value) => name.inspect ++ ": " ++ value.inspect
  "LocalScope(RefCell \x7b value: Scope \x7b bindings: \x7b" ++ ", ".intercalate bindings ++
    "\x7d, parent: "

def Heap.inspectFrame (heap : Heap) (listing : FrameId → List (Name × Value)) (id : FrameId) : String :=
  let frames := (heap.rootPath id).reverse
  let openings := frames.map fun frame => Frame.inspectOpening (listing frame)
  let closings := frames.map fun _ => " \x7d \x7d)"
  "Some(".intercalate openings ++ "None" ++ ")".intercalate closings

def Heap.inspectEnvironment (heap : Heap) (listing : FrameId → List (Name × Value)) (id : FrameId) : String :=
  record "Environment" [("frame", heap.inspectFrame listing id)]

def Name.inspectRedeclaration (name : Name) : String := record "RedeclarationError" [("name", name.inspect)]

end ScopedEval
