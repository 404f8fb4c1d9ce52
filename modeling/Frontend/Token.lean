import Frontend.Value
import Frontend.Text.Layout

/-! Tokens as a parser sees them: a value, the name of the token's class, and where it starts.

Class names are plain text here, since a parser's stack also holds entries of its own, such as
state markers and reduced nonterminals, under names that no scanner produces. -/
namespace Frontend

/-- A token: its value, the name of its class, and the line and column where it starts. -/
structure Token where
  value : Value
  kind : String
  line : Int
  column : Int

namespace Token

/-- A token's row in a listing: value and class name each padded to ten characters, separated
by tabs, then `line:column`. -/
def row (t : Token) : String :=
  Text.padRight 10 t.value.render ++ "\t" ++ Text.padRight 10 t.kind ++ "\t" ++
    Value.writeInt t.line ++ ":" ++ Value.writeInt t.column

end Token
end Frontend
