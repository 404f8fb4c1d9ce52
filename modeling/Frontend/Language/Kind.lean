/-! The token classes of the language.

The language has identifiers, numbers, quoted texts, arithmetic, comparison and logical
operators, punctuation, and ten keywords. A keyword is recognised whatever its case (`SI`, `Si`
and `si` are all the keyword `si`), while the token keeps the case it was written in. -/
namespace Frontend.Language

/-- A token class of the language. -/
inductive Kind where
  | identifier | number | text
  | plus | minus | times | divide | power
  | assign | notEqual | equal | greater | less | greaterEqual | lessEqual
  | logicalAnd | logicalOr | negation
  | comma | semicolon | leftParen | rightParen | leftBrace | rightBrace
  | kwIf | kwElse | kwWhile | kwFor | kwDefine | kwReturn | kwTrue | kwFalse | kwPrint | kwVar
  deriving DecidableEq, Repr

namespace Kind

/-- The name a token class goes by. -/
def name : Kind → String
  | identifier => "IDENTIFICADOR"
  | number => "NUMERO"
  | text => "CADENA"
  | plus => "MAS"
  | minus => "MENOS"
  | times => "MULT"
  | divide => "DIV"
  | power => "POTENCIA"
  | assign => "IGUAL"
  | notEqual => "DIFERENTE"
  | equal => "IGUAL_IGUAL"
  | greater => "MAYOR"
  | less => "MENOR"
  | greaterEqual => "MAYOR_IGUAL"
  | lessEqual => "MENOR_IGUAL"
  | logicalAnd => "Y_LOGICO"
  | logicalOr => "O_LOGICO"
  | negation => "NEGACION"
  | comma => "COMA"
  | semicolon => "PUNTOYCOMA"
  | leftParen => "PAR_IZQ"
  | rightParen => "PAR_DER"
  | leftBrace => "LLAVE_IZQ"
  | rightBrace => "LLAVE_DER"
  | kwIf => "SI"
  | kwElse => "SINO"
  | kwWhile => "MIENTRAS"
  | kwFor => "PARA"
  | kwDefine => "DEFINIR"
  | kwReturn => "RETORNAR"
  | kwTrue => "VERDADERO"
  | kwFalse => "FALSO"
  | kwPrint => "IMPRIMIR"
  | kwVar => "VAR"

/-- Every token class. -/
def all : List Kind :=
  [identifier, number, text, plus, minus, times, divide, power, assign, notEqual, equal, greater,
   less, greaterEqual, lessEqual, logicalAnd, logicalOr, negation, comma, semicolon, leftParen,
   rightParen, leftBrace, rightBrace, kwIf, kwElse, kwWhile, kwFor, kwDefine, kwReturn, kwTrue,
   kwFalse, kwPrint, kwVar]

/-- The token class a name stands for. -/
def ofName? (s : String) : Option Kind := all.find? (·.name == s)

/-- The keywords, by their lower-case spelling. -/
def keywords : List (String × Kind) :=
  [("si", kwIf), ("sino", kwElse), ("mientras", kwWhile), ("para", kwFor),
   ("definir", kwDefine), ("retornar", kwReturn), ("verdadero", kwTrue), ("falso", kwFalse),
   ("imprimir", kwPrint), ("var", kwVar)]

/-- The class of a word: the keyword it spells in any case, else an identifier. -/
def ofWord (w : String) : Kind :=
  ((keywords.find? fun p => p.1 == w.toLower).map Prod.snd).getD identifier

example : ofWord "Si" = kwIf ∧ ofWord "sinO" = kwElse ∧ ofWord "x" = identifier := by
  decide +kernel

end Kind
end Frontend.Language
