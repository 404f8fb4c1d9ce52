/-! The parse table shipped with the language, as comma-separated text.

Its header names the column `Nonterminal` and one column per token class and the end marker. Its
rows are keyed by nonterminal names, not by state numbers, and their cells name rules, name a
nonterminal alone, or are empty. -/
namespace Frontend.Language

/-- The text of the shipped parse table. -/
def tableText : String :=
  "Nonterminal,VAR,IDENTIFICADOR,IGUAL,PUNTOYCOMA,RETORNAR,IMPRIMIR,PAR_IZQ,PAR_DER,COMA,SI,SINO,MIENTRAS,PARA,DEFINIR,LLAVE_IZQ,LLAVE_DER,O_LOGICO,Y_LOGICO,IGUAL_IGUAL,DIFERENTE,MAYOR,MENOR,MAYOR_IGUAL,MENOR_IGUAL,MAS,MENOS,MULT,DIV,POTENCIA,NEGACION,NUMERO,CADENA,VERDADERO,FALSO,$\n" ++
  "PROGRAMA,lista_sentencias,,,,lista_sentencias,lista_sentencias,lista_sentencias,,,,lista_sentencias,lista_sentencias,lista_sentencias,,,,,,,,,,,,,,,,\n" ++
  "lista_sentencias,sentencia lista_sentencias,,,,lista_sentencias -> sentencia lista_sentencias,lista_sentencias -> sentencia lista_sentencias,lista_sentencias -> sentencia lista_sentencias,,,,lista_sentencias -> sentencia lista_sentencias,lista_sentencias -> sentencia lista_sentencias,lista_sentencias -> sentencia lista_sentencias,,,,,,,,,,,,lista_sentencias -> ε\n" ++
  "sentencia,,,,,,,,sentencia -> VAR IDENTIFICADOR IGUAL expresion PUNTOYCOMA,sentencia -> IDENTIFICADOR asignacion_o_llamada PUNTOYCOMA,,,,sentencia -> RETORNAR expresion PUNTOYCOMA,sentencia -> IMPRIMIR PAR_IZQ lista_argumentos PAR_DER PUNTOYCOMA,,,,sentencia -> si_sentencia,sentencia -> mientras_sentencia,sentencia -> para_sentencia,sentencia -> funcion_def,,,,,,,,,,,,,,,,\n" ++
  "asignacion_o_llamada,,,,,,,,,asignacion_o_llamada -> IGUAL expresion,asignacion_o_llamada -> PAR_IZQ lista_argumentos PAR_DER,,,,,,,,,,,,,,,,,,,,,,,,\n" ++
  "lista_argumentos,,,,,,,lista_argumentos -> expresion lista_argumentos_cont,,,,lista_argumentos -> expresion lista_argumentos_cont,,,,,,,,,,,,,,,,lista_argumentos -> expresion lista_argumentos_cont,,,,,,,,,,,,\n" ++
  "lista_argumentos_cont,,,,,,,,,,,,,,,,lista_argumentos_cont -> COMA expresion lista_argumentos_cont,lista_argumentos_cont -> ε,,,,,,,,,,,,,,,,,,,\n" ++
  "si_sentencia,,,,,,,,,,,,,,,si_sentencia -> SI PAR_IZQ expresion PAR_DER bloque sino_parte,,,,,,,,,,,,,,,,,,\n" ++
  "sino_parte,,,,,,,,,,,,,,,,,,,,sino_parte -> SINO bloque,sino_parte -> ε,,,,,,,,,,,,,,\n" ++
  "mientras_sentencia,,,,,,,,,,,,,,,,,mientras_sentencia -> MIENTRAS PAR_IZQ expresion PAR_DER bloque,,,,,,,,,,,,,,,,\n" ++
  "para_sentencia,,,,,,,,,,,,,,,,,,,,,para_sentencia -> PARA PAR_IZQ para_inicio PUNTOYCOMA expresion PUNTOYCOMA IDENTIFICADOR IGUAL expresion PAR_DER bloque,,,,,,,,,,,,,,,,\n" ++
  "para_inicio,,,,,,,,para_inicio -> VAR IDENTIFICADOR IGUAL expresion,para_inicio -> IDENTIFICADOR IGUAL expresion,,,,,,,,,,,,,,,,,,,,,,,,,,,,\n" ++
  "funcion_def,,,,,,,,,,,,,,,,,,,,,,funcion_def -> DEFINIR IDENTIFICADOR PAR_IZQ parametros PAR_DER bloque,,,,,,,,,,,,,,,,\n" ++
  "parametros,,,,,,,parametros -> IDENTIFICADOR parametros_cont,,,,,,,,,,,,,,,,,,,,,,,,,,,,parametros -> ε\n" ++
  "parametros_cont,,,,,,,,,,,,,,,,parametros_cont -> COMA IDENTIFICADOR parametros_cont,,,,,,,,,,,,,,,,,,,,,,,,\n" ++
  "bloque,,,,,,,,,,,,,,,,,,,,,,bloque -> LLAVE_IZQ lista_sentencias LLAVE_DER,,,,,,,,,,,,,,,,\n" ++
  "expresion,,,,,,,expresion -> exp_logico_and exp_logico_or_resto,,,,,,,,,,,,,,,,expresion -> exp_logico_and exp_logico_or_resto,,,,,,,,,,,,,,,,\n" ++
  "exp_logico_or_resto,,,,,,,,,,,,,,,,,,,,,,exp_logico_or_resto -> O_LOGICO exp_logico_and exp_logico_or_resto,exp_logico_or_resto -> ε,,,,,,,,,,,,,,\n" ++
  "exp_logico_and,,,,,,,exp_logico_and -> exp_igualdad exp_logico_and_resto,,,,,,,,,,,,,,,,exp_logico_and -> exp_igualdad exp_logico_and_resto,,,,,,,,,,,,,,,,\n" ++
  "exp_logico_and_resto,,,,,,,,,,,,,,,,,,,,,,,exp_logico_and_resto -> Y_LOGICO exp_igualdad exp_logico_and_resto,exp_logico_and_resto -> ε,,,,,,,,,,,,,,\n" ++
  "exp_igualdad,,,,,,,exp_igualdad -> exp_comparacion exp_igualdad_resto,,,,,,,,,,,,,,,,exp_igualdad -> exp_comparacion exp_igualdad_resto,,,,,,,,,,,,,,,,\n" ++
  "exp_igualdad_resto,,,,,,,,,,,,,,,,,,,,,,,,exp_igualdad_resto -> op_igualdad exp_comparacion exp_igualdad_resto,,,,,,,,\n" ++
  "op_igualdad,,,,,,,,,,,,,,,,,,,,,,,,,,op_igualdad -> IGUAL_IGUAL,op_igualdad -> DIFERENTE,,,,,,,,,,\n" ++
  "exp_comparacion,,,,,,,exp_comparacion -> exp_suma exp_comparacion_resto,,,,,,,,,,,,,,,,exp_comparacion -> exp_suma exp_comparacion_resto,,,,,,,,,,,,,,,,\n" ++
  "exp_comparacion_resto,,,,,,,,,,,,,,,,,,,,,,,,,,exp_comparacion_resto -> op_comp exp_suma exp_comparacion_resto,,,,\n" ++
  "op_comp,,,,,,,,,,,,,,,,,,,,,,,,,,,,op_comp -> MAYOR,op_comp -> MENOR,op_comp -> MAYOR_IGUAL,op_comp -> MENOR_IGUAL,,,,,,,,\n" ++
  "exp_suma,,,,,,,exp_suma -> exp_mult exp_suma_resto,,,,,,,,,,,,,,,,exp_suma -> exp_mult exp_suma_resto,,,,,,,,,,,,,,,,\n" ++
  "exp_suma_resto,,,,,,,,,,,,,,,,,,,,,,,,,,,exp_suma_resto -> op_suma exp_mult exp_suma_resto,,,,\n" ++
  "op_suma,,,,,,,,,,,,,,,,,,,,,,,,,,,,,,,,,,op_suma -> MAS,op_suma -> MENOS,,,\n" ++
  "exp_mult,,,,,,,exp_mult -> exp_potencia exp_mult_resto,,,,,,,,,,,,,,,,exp_mult -> exp_potencia exp_mult_resto,,,,,,,,,,,,,,,,\n" ++
  "exp_mult_resto,,,,,,,,,,,,,,,,,,,,,,,,,,,,,,,,,,exp_mult_resto -> op_mult exp_potencia exp_mult_resto,,,\n" ++
  "op_mult,,,,,,,,,,,,,,,,,,,,,,,,,,,,,,,,,,,,,,op_mult -> MULT,op_mult -> DIV,\n" ++
  "exp_potencia,,,,,,,exp_potencia -> exp_unario exp_potencia_resto,,,,,,,,,,,,,,,,exp_potencia -> exp_unario exp_potencia_resto,,,,,,,,,,,,,,,,\n" ++
  "exp_potencia_resto,,,,,,,,,,,,,,,,,,,,,,,,,,,,,,,,,,,,,exp_potencia_resto -> POTENCIA exp_unario exp_potencia_resto\n" ++
  "exp_unario,,,,,,,exp_unario -> primario,,,,,,,,,,,,,,exp_unario -> MENOS exp_unario,,,,exp_unario -> NEGACION exp_unario,exp_unario -> primario,exp_unario -> primario,exp_unario -> primario,exp_unario -> primario,,,,,,,,\n" ++
  "primario,,,,,,,primario -> IDENTIFICADOR primario_llamada_opcional,,,,,,,,primario -> PAR_IZQ expresion PAR_DER,,,,,,,,,,,,primario -> NUMERO,primario -> CADENA,primario -> VERDADERO,primario -> FALSO,,,,,,\n" ++
  "primario_llamada_opcional,,,,,,,,,,,,primario_llamada_opcional -> PAR_IZQ lista_argumentos PAR_DER,,,,primario_llamada_opcional -> ε,,,,,,,,,,,,,,,,\n"

end Frontend.Language
