import Frontend.Predictive.Table
import Frontend.Text.Layout
import Frontend.Text.Blank

/-! Predictive analysis with a narrated trace.

The analysis keeps a stack of symbols, with the end mark at the bottom and the start symbol over
it, and reads the tokens followed by the end mark. While the top of the stack is not the end mark,
one step runs: a top equal to the current token is popped and the token consumed; otherwise the
table's body for the top and the token replaces the top, its first symbol on top and `ε` left
out; with no body the analysis stops with an error. When the end mark comes to the top, the
input is accepted if the current token is the end mark too.

Every step is recorded with the stack read from the bottom, the input left and what was done, and
narrated with a picture of the stack; `analyze_steps_ne` says the trace is never empty.

The loop runs on fuel, `stepBound`, and gives no outcome when the fuel is spent: the analysis
then does not end. An analysis that ends is a walk through a tree of symbols in which a symbol's
children are its body; no path of the tree meets the same symbol twice at the same input
position, since the analysis would then repeat itself without end. So a path has at most one
node per position and table entry, plus its leaf, and the tree at most `stepBound` nodes. -/
namespace Frontend.Predictive

/-- One line of the trace. -/
structure Step where
  /-- The step's number, from one. -/
  number : Nat
  /-- The stack, from the bottom, its symbols separated by spaces. -/
  stack : String
  /-- The input not yet consumed, separated by spaces. -/
  input : String
  /-- What the step did. -/
  action : String
  deriving DecidableEq

/-- How an analysis ends. -/
inductive Verdict where
  /-- The input belongs to the table's language. -/
  | accepted
  /-- The table has no body for a symbol and the token at a position. -/
  | noRule (symbol token : String) (position : Nat)
  /-- The end mark reached the top while a token was left. -/
  | unconsumed (token : String)
  deriving DecidableEq

namespace Verdict

/-- The verdict in a word. -/
def conclusion : Verdict → String
  | .accepted => "ACEPTADO :)"
  | _ => "ERROR SINTACTICO :("

/-- What the verdict says. -/
def message : Verdict → String
  | .accepted => "¡Esta cadena si pertenece a tu gramatica!"
  | .noRule symbol token position =>
    "Error sintáctico en el token '" ++ token ++ "' (posición " ++ toString position ++
      "). No hay regla definida para el no terminal '" ++ symbol ++ "'."
  | .unconsumed token => "Entrada no consumida completamente. Token actual: '" ++ token ++ "'"

end Verdict

/-- The result of an analysis: how it ended, its trace, and its narration. -/
structure Outcome where
  /-- How the analysis ended. -/
  verdict : Verdict
  /-- The steps, in order. -/
  steps : Array Step
  /-- The narration, line by line. -/
  narration : String

/-- Where an analysis stands. -/
structure Config where
  /-- The stack, top first. -/
  stack : List String
  /-- The position of the current token. -/
  position : Nat
  /-- The current token. -/
  current : String
  /-- The number of the next step. -/
  number : Nat
  /-- The steps so far. -/
  steps : Array Step
  /-- The narration so far. -/
  narration : String

/-! ### Pictures -/

/-- The stack drawn as a column of boxes, top first. -/
def stackPicture (stack : List String) : String :=
  "\nEstado actual de la pila:\n+-------+\n" ++
    String.join (stack.map fun s => "| " ++ Text.center 5 s ++ " |\n+-------+\n")

/-- The stack read from the bottom. -/
def stackLine (stack : List String) : String := " ".intercalate stack.reverse

/-- The input from a position on. -/
def inputLine (input : List String) (position : Nat) : String :=
  " ".intercalate (input.drop position)

/-- What expanding a symbol by a body is called: the body's symbols joined by arrows, which for
the empty body is `ε` alone. -/
def expansionText (symbol : String) (body : List String) : String :=
  symbol ++ " -> " ++ " -> ".intercalate body

/-! ### Steps -/

/-- The narrated heading of a step. -/
def heading (c : Config) (top : String) : String :=
  "\n >>> PASO " ++ toString c.number ++ " <<<\nTope de Pila: '" ++ top ++
    "'\nToken actual de Entrada: '" ++ c.current ++ "'\n"

/-- The trace line of a step taken from `c`. -/
def stepLine (input : List String) (c : Config) (action : String) : Step :=
  ⟨c.number, stackLine c.stack, inputLine input c.position, action⟩

/-- Pops a top equal to the current token and consumes the token. -/
def consume (input : List String) (c : Config) (top : String) (below : List String) : Config :=
  let current := input[c.position + 1]?.getD c.current
  { stack := below
    position := c.position + 1
    current := current
    number := c.number + 1
    steps := c.steps.push (stepLine input c ("Emparejar " ++ top))
    narration := c.narration ++ heading c top ++
      "\n ¡COINCIDENCIA! El tope '" ++ top ++ "' coincide con el token actual\n" ++
      "• Solucion: Sacar '" ++ top ++ "' de la pila y avanzar al siguiente token\n" ++
      stackPicture below ++ "• Nuevo token: '" ++ current ++ "'\n" }

/-- Replaces the top by a body, its first symbol on top. -/
def expand (input : List String) (c : Config) (top : String) (below body : List String) :
    Config :=
  let action := expansionText top body
  let pushed := body.filter (· != emptyMark)
  let stack := pushed ++ below
  { c with
    stack := stack
    number := c.number + 1
    steps := c.steps.push (stepLine input c action)
    narration := c.narration ++ heading c top ++
      "\n EXPANSIÓN Aplicando regla gramatical: " ++ action ++ "\n" ++
      "• Sacamos '" ++ top ++ "' de la pila y agregamos la producción\n" ++
      String.join (pushed.reverse.map fun s => "  - Agregando '" ++ s ++ "' a la pila\n") ++
      stackPicture stack ++ "• Token actual se mantiene: '" ++ c.current ++ "' (no avanzamos)\n" }

/-- Stops where the table has no body for the top and the current token. -/
def reject (input : List String) (c : Config) (top : String) : Outcome :=
  { verdict := .noRule top c.current c.position
    steps := c.steps.push (stepLine input c "ERROR: No hay regla definida")
    narration := c.narration ++ heading c top ++
      "\n ¡ERROR! ¡No existe regla en la tabla para (" ++ top ++ ", " ++ c.current ++ ")!\n" ++
      "Posibles causas:\n" ++
      "- Falta una producción para '" ++ top ++ "' con el token '" ++ c.current ++ "'\n" ++
      "- Token inesperado en la posición " ++ toString c.position ++ "\n" ++
      "- Error en la gramática (revisar tabla sintáctica)\n" }

/-- One step from a top that is not the end mark: the next configuration, or the outcome. -/
def advance (t : Table) (input : List String) (c : Config) (top : String) (below : List String) :
    Outcome ⊕ Config :=
  if top == c.current then .inr (consume input c top below)
  else
    match t.find? top c.current with
    | some body => .inr (expand input c top below body)
    | none => .inl (reject input c top)

/-- Ends an analysis whose stack shows the end mark: accepted when the input is consumed too. -/
def finish (input : List String) (c : Config) : Outcome :=
  if c.current == endMark then
    { verdict := .accepted
      steps := c.steps.push (stepLine input c "ACEPTAR")
      narration := c.narration ++ "\n <<< PILA VACIA >>> \n" ++
        "¡Proceso completado exitosamente!\n" ++
        "La pila solo contiene '$' (se vació correctamente)\n" ++
        "Todos los tokens fueron procesados\n" ++
        "CONCLUSIÓN: La cadena es válida según la gramática\n" }
  else
    { verdict := .unconsumed c.current
      steps := c.steps.push (stepLine input c "ERROR: Entrada no consumida")
      narration := c.narration ++ "\n <<< FALLO >>>\n" ++
        "¡Proceso terminado con errores!\n" ++
        " Token pendiente sin procesar: '" ++ c.current ++ "'\n" ++
        " La pila se vació pero quedaron tokens sin consumir\n" }

/-- Runs steps until the end mark is on top or a step fails; nothing when the fuel is spent
first. -/
def loop (t : Table) (input : List String) : Nat → Config → Option Outcome
  | 0, _ => none
  | fuel + 1, c =>
    match c.stack with
    | [] => some (finish input c)
    | top :: below =>
      if top == endMark then some (finish input c)
      else
        match advance t input c top below with
        | .inl o => some o
        | .inr next => loop t input fuel next

/-- More steps than an analysis of `input` that ends can take (see the module note). -/
def stepBound (t : Table) (input : List String) : Nat :=
  Nat.pow (t.widest + 2) (input.length * (t.entries.length + 1) + 2)

/-- The configuration an analysis of `input` starts from. -/
def start (input : List String) : Config :=
  let stack := [startSymbol, endMark]
  let current := input.headD endMark
  { stack := stack
    position := 0
    current := current
    number := 1
    steps := #[]
    narration := "\n INICIANDO ANALISIS\n Nuestra pila siempre empezará ['$', 'E']):\n" ++
      stackPicture stack ++ "• Primer token a procesar: '" ++ current ++ "'\n" }

/-- Analyzes a list of tokens; the end mark is added after them. Nothing when the analysis does
not end. -/
def analyze (t : Table) (tokens : List String) : Option Outcome :=
  let input := tokens ++ [endMark]
  loop t input (stepBound t input) (start input)

/-- The summary that follows the analysis of a line. -/
def summary (line : String) (o : Outcome) : String :=
  "\n <<< RESUMEN DEL ANÁLISIS >>>\nENTRADA: " ++ line ++ "\nCONCLUSION: " ++
    o.verdict.conclusion ++ "\nSALIDA: " ++ o.verdict.message ++ "\n"

/-- Analyzes the words of a line, and narrates a summary after the analysis. -/
def analyzeLine (t : Table) (line : String) : Option Outcome :=
  (analyze t (Text.words line)).map fun o => { o with narration := o.narration ++ summary line o }

/-! ### The trace -/

theorem expansionText_empty (symbol : String) :
    expansionText symbol [emptyMark] = symbol ++ " -> " ++ emptyMark := rfl

theorem loop_end (t : Table) (input : List String) (fuel : Nat) (c : Config)
    (below : List String) (hs : c.stack = endMark :: below) :
    loop t input (fuel + 1) c = some (finish input c) := by
  unfold loop
  rw [hs]
  simp

theorem loop_step (t : Table) (input : List String) (fuel : Nat) (c : Config) (top : String)
    (below : List String) (hs : c.stack = top :: below) (ht : top ≠ endMark) :
    loop t input (fuel + 1) c =
      match advance t input c top below with
      | .inl o => some o
      | .inr next => loop t input fuel next := by
  conv => lhs; unfold loop
  rw [hs]
  simp [ht]

theorem finish_steps_size (input : List String) (c : Config) :
    c.steps.size < (finish input c).steps.size := by
  unfold finish; split <;> simp

theorem advance_steps_size (t : Table) (input : List String) (c : Config) (top : String)
    (below : List String) :
    (∀ o, advance t input c top below = .inl o → c.steps.size < o.steps.size) ∧
    (∀ next, advance t input c top below = .inr next → c.steps.size < next.steps.size) := by
  unfold advance
  split
  · exact ⟨fun o h => (by cases h), fun n h => (by cases h; simp [consume])⟩
  · split
    · exact ⟨fun o h => (by cases h), fun n h => (by cases h; simp [expand])⟩
    · exact ⟨fun o h => (by cases h; simp [reject]), fun n h => (by cases h)⟩

theorem loop_steps_size (t : Table) (input : List String) (fuel : Nat) (c : Config)
    (o : Outcome) (h : loop t input fuel c = some o) : c.steps.size < o.steps.size := by
  induction fuel generalizing c with
  | zero => cases h
  | succ fuel ih =>
    unfold loop at h
    split at h
    · cases h; exact finish_steps_size input c
    · split at h
      · cases h; exact finish_steps_size input c
      · split at h
        · next o' heq => cases h; exact (advance_steps_size t input c _ _).1 _ heq
        · next n heq => exact Nat.lt_trans ((advance_steps_size t input c _ _).2 n heq) (ih n h)

/-- **The trace of an analysis that ends is never empty.** -/
theorem analyze_steps_ne (t : Table) (tokens : List String) (o : Outcome)
    (h : analyze t tokens = some o) : o.steps ≠ #[] := by
  intro he
  have := loop_steps_size t (tokens ++ [endMark]) (stepBound t (tokens ++ [endMark]))
    (start (tokens ++ [endMark])) o h
  rw [he] at this
  simp [start] at this

end Frontend.Predictive
