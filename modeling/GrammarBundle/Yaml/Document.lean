import GrammarBundle.Yaml.Value

/-!
Reading a document: its text becomes tokens, these the nodes of a graph, and the outermost one a value. A
text without a document reads as nothing. What a text means is fixed by version 1.1 of the format and by the
common reader for it; where these leave a choice, in the nesting of nodes without a limit and in the order
of sets, this reading is one of those that are allowed.
-/

namespace GrammarBundle.Yaml

def read (text : Text) : Except Fault Datum :=
  if !text.all isAllowed then .error .malformed
  else
    match Builder.document (tokensOf text) with
    | .error f => .error f
    | .ok none => .ok .null
    | .ok (some (number, nodes)) => Node.value number nodes

end GrammarBundle.Yaml
