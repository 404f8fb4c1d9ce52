import Frontend.Parse.Table
import Frontend.Language.Kind

/-! A table-driven shift-reduce parser, one step at a time.

The parser holds its tokens, its table, and a stack of entries, which starts with one entry for
the start symbol. Its state is the value of the entry on top of the stack. A step appends an end
marker to a copy of the tokens, at the last token's position, and looks up the move for the state
and the first token's symbol; a token's symbol is its class, which must be a token class of the
language or the end marker.

A shift pushes the token and a state marker, whose value is the word `ESTADO` and whose class is
the target state's number. A reduction pops two entries per symbol of the rule's body, and builds
a node that takes the popped entries, but for those of class `ESTADO`, and its children among the
nodes built in the step; then it pushes the rule's head and, from the move for the entry now below it and the
head, the marker of the state it goes to. The step then ends: a parse needs more than one step to
succeed, and a step that neither fails nor succeeds reports that it ran out of steps.

A missing move gives a syntax error that tells the position, the token, the symbols the state has
moves for, and a hint by the token's class. -/
namespace Frontend.Parse

/-- The value of a state marker. -/
def markerWord : String := "ESTADO"

/-- The class of an entry pushed for a reduced head. -/
def headClass : String := "NO_TERMINAL"

/-- The end marker. -/
def endSymbol : String := "$"

/-- The table symbol of a token class: a token class of the language, or the end marker. -/
def symbolOf? (kind : String) : Option String :=
  if kind == endSymbol || (Language.Kind.ofName? kind).isSome then some kind else none

/-- The hint given for an unexpected token of a class. -/
def hint (kind : String) : String :=
  match kind with
  | "PUNTOYCOMA" => "¿Falta un ';' al final de la sentencia?"
  | "LLAVE_DER" => "¿Falta cerrar un bloque con '\x7d'?"
  | "LLAVE_IZQ" => "¿Falta abrir un bloque con '\x7b'?"
  | "PAR_DER" => "¿Falta cerrar paréntesis ')'?"
  | "PAR_IZQ" => "¿Falta abrir paréntesis '('?"
  | "IGUAL" => "¿Falta una expresión después del '='?"
  | "IDENTIFICADOR" => "Se esperaba un identificador válido"
  | "NUMERO" => "Se esperaba un número"
  | "CADENA" => "Se esperaba una cadena de texto"
  | "$" => "Error al final del archivo. Posible falta de cierre de alguna estructura"
  | _ => "Revisa la sintaxis en esta posición"

/-- A parser: its tokens, its table, and its stack, bottom first. -/
structure Parser where
  tokens : List Token
  table : ParseTable
  stack : Array Token

/-- The entry the stack starts with. -/
def startEntry : Token := ⟨.text "PROGRAMA", endSymbol, 0, 0⟩

/-- What a step reports: a message, the tree if the parse succeeded, and the lines it logged. -/
structure Outcome where
  message : String
  tree : Option Node
  log : List String

namespace Parser

/-- A parser for tokens, with the table in a file. -/
def create (tokens : List Token) (file : TableFile) : Except LoadError Parser :=
  (ParseTable.load file).map fun table => ⟨tokens, table, #[startEntry]⟩

/-- The symbols the stack's state has moves for: the state is the top entry's value when that
entry's class is the marker word, and the end marker otherwise. -/
def expected (p : Parser) : List String :=
  match p.stack.back? with
  | none => []
  | some top =>
    let state := if top.kind == markerWord then top.value else .text endSymbol
    match state with
    | .text s => p.table.symbolsOf s
    | _ => []

/-- The syntax error for an unexpected token. -/
def syntaxError (p : Parser) (tok : Token) : String :=
  let expected := p.expected
  "Error sintáctico en Línea " ++ Value.writeInt tok.line ++ ", Columna " ++
    Value.writeInt tok.column ++ ". Token inesperado: '" ++ tok.value.render ++ "' (" ++
    tok.kind ++ ")." ++
    (if expected.isEmpty then "" else " Se esperaba uno de: " ++ ", ".intercalate expected ++ ".") ++
    " " ++ hint tok.kind

/-- The move for a state value and a symbol: only a text state has moves. -/
def moveFor (p : Parser) (state : Value) (symbol : String) : Option Move :=
  match state with
  | .text s => p.table.find? s symbol
  | _ => none

/-- The message of a step that neither failed nor succeeded. -/
def outOfSteps : String := "Error: Análisis sintáctico excedió el máximo de iteraciones"

/-- A reduction by rule `n` at token `tok`, logged so far as `log`. -/
def reduce (p : Parser) (n : Nat) (tok : Token) (log : List String) :
    Outcome × Parser :=
  match rule? n with
  | none => (⟨"Error: Regla " ++ toString n ++ " no encontrada", none, log⟩, p)
  | some prod =>
    let count := 2 * prod.body.length
    if p.stack.size < count then
      (⟨"Error: Pila vacía durante reducción", none, log⟩, { p with stack := #[] })
    else
      let popped := p.stack.extract (p.stack.size - count) p.stack.size
      let p := { p with stack := p.stack.extract 0 (p.stack.size - count) }
      let node := Node.mk (.int n) (popped.toList.filter (·.kind != markerWord)) []
      match attachChildren (.int n) node [] with
      | .error e => (⟨"Error durante el análisis: " ++ e.message, none, log⟩, p)
      | .ok (node, built) =>
        let built := built ++ [node.reverseTerminals]
        match p.stack.back? with
        | none => (⟨"Error: Pila vacía después de reducción", none, log⟩, p)
        | some below =>
          let p := { p with stack := p.stack.push ⟨.text prod.head, headClass, tok.line, tok.column⟩ }
          match p.moveFor below.value prod.head with
          | some (.shift target) =>
            let p := { p with
              stack := p.stack.push ⟨.text markerWord, toString target, tok.line, tok.column⟩ }
            if n == 0 && tok.kind == endSymbol then (⟨"Análisis exitoso", built.head?, log⟩, p)
            else (⟨outOfSteps, none, log⟩, p)
          | _ => (⟨"Error: No se encontró GOTO para " ++ prod.head, none, log⟩, p)

/-- One step of analysis. -/
def analyze (p : Parser) : Outcome × Parser :=
  let last := p.tokens.getLast?
  let input := p.tokens ++
    [⟨.text endSymbol, endSymbol, (last.map (·.line)).getD 0, (last.map (·.column)).getD 0⟩]
  match p.stack.back?, input with
  | none, _ => (⟨"Error: Pila vacía", none, []⟩, p)
  | _, [] => (⟨"Error: No hay más tokens pero el análisis no ha terminado", none, []⟩, p)
  | some top, tok :: _ =>
    match symbolOf? tok.kind with
    | none => (⟨"Error durante el análisis: Token no reconocido: " ++ tok.kind, none, []⟩, p)
    | some symbol =>
      let log := ["Buscando produccion para [" ++ top.value.render ++ ", " ++ symbol ++ "]"]
      match p.moveFor top.value symbol with
      | some (.shift target) =>
        let stack := (p.stack.push tok).push ⟨.text markerWord, toString target, tok.line, tok.column⟩
        (⟨outOfSteps, none, log⟩, { p with stack := stack })
      | some (.reduce n) => p.reduce n tok log
      | none => (⟨p.syntaxError tok, none, log⟩, p)

end Parser
end Frontend.Parse
