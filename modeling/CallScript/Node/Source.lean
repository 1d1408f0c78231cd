import CallScript.Node.Parser
import CallScript.Token.Lexer

/-!
# From source text to trees
-/

namespace CallScript

/-- The syntax tree of a source text: its tokens are read first, all of them, and then the tree. -/
def parseSource (source : String) : Except ScriptError Node :=
  match tokenize source with
  | .ok tokens => parse tokens
  | .error e => .error e

end CallScript
