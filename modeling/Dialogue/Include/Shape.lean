import Dialogue.Include.Resolver
import Dialogue.Inclusion.Shape
/-!
# `Dialogue.Include.Shape` — environments, resolvers and options spelled out.
-/

namespace Dialogue

/-- A value that may be absent. -/
def optionShape : Option String → String
  | some s => s!"Some({s})"
  | none => "None"

/-- A path that may be absent. -/
def pathShape (p : Option Path) : String := optionShape (p.map fun p => Text.Quoted.text p.toString)

/-- The structure of a stack. -/
def Include.Stack.shape (s : Include.Stack) : String :=
  "IncludeStack([" ++ ", ".intercalate (s.paths.map fun p => Text.Quoted.text p.toString) ++ "])"

/-- **The structure of a resolver**, as far as it is told. -/
def Include.Resolver.shape (r : Include.Resolver) : String :=
  "IncludeResolver \x7b dir: " ++ pathShape r.dir ++ ", stack: " ++ r.stack.shape ++ ", .. \x7d"

/-- The structure of options. -/
def Include.Options.shape (o : Include.Options) : String :=
  Inclusion.record "IncludeOptions"
    [("binary", toString o.binary), ("mime", optionShape (o.mediaType.map Text.Quoted.text))]

/-- **The structure of an environment:** counts in place of what it holds. -/
def Environment.shape (env : Environment) : String :=
  Inclusion.record "Environment" [("file_path", pathShape env.file), ("bindings", toString env.count),
    ("functions", toString env.functions.length), ("include_installed", toString env.hasInclude)]

end Dialogue
