/-!
# Kinds of token

The closed set of lexical classes of the scanned language: the end of the stream, the operators
and delimiters, the keywords, the three literal classes and the error class.  Every kind has a
numeric code and a name.  The operators, delimiters and keywords also have one fixed spelling, and
no two kinds share a code or a spelling.
-/

namespace TokenAudit

/-- The lexical class of a token, in the order of the codes. -/
inductive Kind where
  | eof
  | plus
  | minus
  | times
  | divide
  | lparen
  | rparen
  | lbrack
  | rbrack
  | lbrace
  | rbrace
  | comma
  | dot
  | semicolon
  | assign
  | eq
  | lt
  | gt
  | classWord
  | nilWord
  | arrayWord
  | whileWord
  | ifWord
  | elseWord
  | newWord
  | extendsWord
  | returnWord
  | intWord
  | stringWord
  | voidWord
  | integer
  | stringLit
  | identifier
  | error
  deriving DecidableEq, Repr, Inhabited

namespace Kind

/-- Every kind once, in the order of the codes. -/
def all : List Kind :=
  [eof, plus, minus, times, divide, lparen, rparen, lbrack, rbrack, lbrace, rbrace, comma, dot,
    semicolon, assign, eq, lt, gt, classWord, nilWord, arrayWord, whileWord, ifWord, elseWord,
    newWord, extendsWord, returnWord, intWord, stringWord, voidWord, integer, stringLit,
    identifier, error]

/-- The stable numeric code of a kind, its place in `all`. -/
def code (k : Kind) : Nat := all.idxOf k

/-- The kind with a given code, if there is one. -/
def ofCode? (n : Nat) : Option Kind := all[n]?

/-- The name under which a kind is reported. -/
def name : Kind → String
  | eof => "EOF"
  | plus => "PLUS"
  | minus => "MINUS"
  | times => "TIMES"
  | divide => "DIVIDE"
  | lparen => "LPAREN"
  | rparen => "RPAREN"
  | lbrack => "LBRACK"
  | rbrack => "RBRACK"
  | lbrace => "LBRACE"
  | rbrace => "RBRACE"
  | comma => "COMMA"
  | dot => "DOT"
  | semicolon => "SEMICOLON"
  | assign => "ASSIGN"
  | eq => "EQ"
  | lt => "LT"
  | gt => "GT"
  | classWord => "CLASS"
  | nilWord => "NIL"
  | arrayWord => "ARRAY"
  | whileWord => "WHILE"
  | ifWord => "IF"
  | elseWord => "ELSE"
  | newWord => "NEW"
  | extendsWord => "EXTENDS"
  | returnWord => "RETURN"
  | intWord => "TYPE_INT"
  | stringWord => "TYPE_STRING"
  | voidWord => "TYPE_VOID"
  | integer => "INT"
  | stringLit => "STRING"
  | identifier => "ID"
  | error => "ERROR"

/-- The kind with a given name, if there is one. -/
def ofName? (s : String) : Option Kind := all.find? fun k => k.name == s

/-- The characters of the fixed spelling of an operator, delimiter or keyword.  The other kinds
have no fixed spelling. -/
def letters? : Kind → Option (List Char)
  | plus => some ['+']
  | minus => some ['-']
  | times => some ['*']
  | divide => some ['/']
  | lparen => some ['(']
  | rparen => some [')']
  | lbrack => some ['[']
  | rbrack => some [']']
  | lbrace => some ['{']
  | rbrace => some ['}']
  | comma => some [',']
  | dot => some ['.']
  | semicolon => some [';']
  | assign => some [':', '=']
  | eq => some ['=']
  | lt => some ['<']
  | gt => some ['>']
  | classWord => some ['c', 'l', 'a', 's', 's']
  | nilWord => some ['n', 'i', 'l']
  | arrayWord => some ['a', 'r', 'r', 'a', 'y']
  | whileWord => some ['w', 'h', 'i', 'l', 'e']
  | ifWord => some ['i', 'f']
  | elseWord => some ['e', 'l', 's', 'e']
  | newWord => some ['n', 'e', 'w']
  | extendsWord => some ['e', 'x', 't', 'e', 'n', 'd', 's']
  | returnWord => some ['r', 'e', 't', 'u', 'r', 'n']
  | intWord => some ['i', 'n', 't']
  | stringWord => some ['s', 't', 'r', 'i', 'n', 'g']
  | voidWord => some ['v', 'o', 'i', 'd']
  | eof | integer | stringLit | identifier | error => none

/-- The fixed spelling as a string. -/
def spelling? (k : Kind) : Option String := k.letters?.map String.ofList

/-- The operators and delimiters. -/
def operators : List Kind :=
  [plus, minus, times, divide, lparen, rparen, lbrack, rbrack, lbrace, rbrace, comma, dot,
    semicolon, assign, eq, lt, gt]

/-- The keywords, type names included. -/
def keywords : List Kind :=
  [classWord, nilWord, arrayWord, whileWord, ifWord, elseWord, newWord, extendsWord, returnWord,
    intWord, stringWord, voidWord]

/-- The operator or delimiter spelled by exactly these characters. -/
def operator? (cs : List Char) : Option Kind := operators.find? fun k => k.letters? == some cs

/-- The keyword spelled by exactly these characters.  Case matters. -/
def keyword? (cs : List Char) : Option Kind := keywords.find? fun k => k.letters? == some cs

/-- The end-of-stream kind. -/
def isEof (k : Kind) : Bool := k == eof

/-- The kind of lexical errors. -/
def isError (k : Kind) : Bool := k == error

/-- A kind that takes part in a listing, neither the end of the stream nor an error. -/
def isContent (k : Kind) : Bool := !k.isEof && !k.isError

/-- A code determines its kind. -/
theorem ofCode?_code (k : Kind) : ofCode? k.code = some k := by
  cases k <;> decide

/-- A name determines its kind. -/
theorem ofName?_name (k : Kind) : ofName? k.name = some k := by
  cases k <;> decide

end Kind

end TokenAudit
