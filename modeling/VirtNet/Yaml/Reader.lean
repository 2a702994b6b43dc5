import VirtNet.Yaml.Graph.Value
import VirtNet.Yaml.Token.Lexer

/-!
# Reading a text

The value of a text with at most one document. A text without a document has the absent value.
-/

namespace VirtNet.Yaml

/-- The value of a text. -/
def read (text : String) : Except Fault Value := do
  match ← Node.ofTokens (Token.ofText text.toList) with
  | none => return .null
  | some n => (Graph.ofNode n).value

end VirtNet.Yaml
