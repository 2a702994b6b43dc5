import VirtNet.Text.Blank
import VirtNet.Text.Split
import VirtNet.Yaml.Writer

/-!
# Manifests and document streams

A manifest is one document with a comment over it. A stream starts with comment lines and has a
separator line before each manifest. Neither has a text where a number in it is too long to be written.
-/

namespace VirtNet

/-- A document with a comment. -/
structure Manifest where
  comment : String
  body : Value

namespace Manifest

/-- The line between the parts of a stream. -/
def separator : String := "---\n"

/-- The text of a manifest. -/
def render? (m : Manifest) : Option String :=
  (Yaml.toYaml? m.body).map fun text => s!"# {m.comment}\n{text}"

/-- A header line as a comment, without blanks at its end. -/
def headerLine (line : String) : String := Text.stripEnd s!"# {line}"

/-- The text of a stream. -/
def renderStream? (header : List String) (manifests : List Manifest) : Option String := do
  let first := Text.joinWith "\n" (header.map headerLine) ++ "\n"
  let texts ← manifests.mapM render?
  return Text.joinWith separator (first :: texts)

end Manifest

end VirtNet
