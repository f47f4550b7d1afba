/-!
Identifiers in assembly text. A plain identifier stands bare; any other name stands between single
quotes, with backslashes and single quotes escaped.
-/
namespace CilAssembly.Identifier

/-- The characters of a bare identifier. -/
def isBareChar (c : Char) : Bool :=
  c.isAlphanum || c == '_' || c == '.' || c == '$' || c == '@' || c == '\x60' || c == '?'

/-- The characters that may open a bare identifier. -/
def isBareStart (c : Char) : Bool :=
  c.isAlpha || c == '_'

/-- The name needs no quotes. Constructor names are keywords of the assembler and stand bare too. -/
def isBare (name : List Char) : Bool :=
  name == ".ctor".toList || name == ".cctor".toList ||
    name.head?.any isBareStart && name.all isBareChar

/-- A character as it stands between single quotes. -/
def escapeChar (c : Char) : List Char :=
  if c == '\\' || c == '\'' then ['\\', c] else [c]

def quoteChars (name : List Char) : List Char :=
  if isBare name then name else '\'' :: (name.flatMap escapeChar ++ ['\''])

/-- The spelling of a name in assembly text. -/
def quote (name : String) : String :=
  String.ofList (quoteChars name.toList)

end CilAssembly.Identifier
