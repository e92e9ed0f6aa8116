/-!
# The built-in schema

What is generated when no schema file is given: the expression type of a small language.
-/

namespace TaggedUnion.Builtin

def base : String :=
  "Expr"

def nodeLines : List String :=
  ["Binary | Expr, Token, Expr",
   "MsgEmission | Option<Box<Expr>>, Token, Option<Box<Expr>>",
   "BinaryOpt | Expr, Token, Option<Box<Expr>>",
   "Asm | Expr, Expr",
   "Object | Vec<Expr>",
   "Fn | Vec<Expr>, Expr",
   "CodeBlock | Vec<Expr>",
   "Type | Vec<Expr>",
   "Literal | Literal"]

def source : String :=
  "\n".intercalate nodeLines

end TaggedUnion.Builtin
