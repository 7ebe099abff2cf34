import Dialogue.Inclusion
import Dialogue.Text.Quoted
/-!
# `Dialogue.Inclusion.Shape` — the structure of an include, spelled out.
-/

namespace Dialogue.Inclusion

/-- The numbers of bytes, separated by commas. -/
def byteList (bs : Bytes) : String :=
  "[" ++ ", ".intercalate (bs.map fun b => toString b.toNat) ++ "]"

/-- A named record with its fields. -/
def record (name : String) (fields : List (String × String)) : String :=
  name ++ " \x7b " ++ ", ".intercalate (fields.map fun (k, v) => s!"{k}: {v}") ++ " \x7d"

mutual

/-- **The structure of an include**, every level of it. -/
def shape : Inclusion → String
  | binary filename mediaType data =>
    let inner := record "BinaryIncludePart" [("filename", Text.Quoted.text filename),
      ("mime_type", Text.Quoted.text mediaType), ("data", byteList data)]
    s!"Binary({inner})"
  | composite children =>
    let inner := record "CompositeIncludePart"
      [("children", "[" ++ ", ".intercalate (childShapes children) ++ "]")]
    s!"Composite({inner})"

/-- The structures of children. -/
def childShapes : List (String ⊕ Inclusion) → List String
  | [] => []
  | .inl t :: rest => ("Text(" ++ Text.Quoted.text t ++ ")") :: childShapes rest
  | .inr i :: rest => ("Part(" ++ i.shape ++ ")") :: childShapes rest

end

end Dialogue.Inclusion
