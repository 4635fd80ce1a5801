import ScopedEval.Heap

namespace ScopedEval

namespace Frame

def sortedBindings (names : Interner) (frame : Frame) : List (String × Value) :=
  (frame.bindings.entries.map fun (name, value) => (names.lookup name, value)).mergeSort
    fun left right => !decide (right.1 < left.1)

def dump (names : Interner) (frame : Frame) : String :=
  let bindings := (frame.sortedBindings names).map fun (text, value) => text ++ "=" ++ value.text
  "\x7b \x7b" ++ ", ".intercalate bindings ++ "\x7d \x7d"

end Frame

def Heap.dump (names : Interner) (heap : Heap) (id : FrameId) : String :=
  " ".intercalate (((heap.rootPath id).filterMap heap.frame?).map (Frame.dump names))

end ScopedEval
