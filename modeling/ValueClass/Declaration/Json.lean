import ValueClass.Declaration

/-!
# Descriptions as JSON

The description of a class as an indented JSON object, one entry a line.
-/

namespace ValueClass

/-- A character within a JSON string. -/
def jsonChar (c : Char) : List Char :=
  match c with
  | '"' => ['\\', '"']
  | '\\' => ['\\', '\\']
  | '\x08' => ['\\', 'b']
  | '\x0c' => ['\\', 'f']
  | '\n' => ['\\', 'n']
  | '\r' => ['\\', 'r']
  | '\t' => ['\\', 't']
  | _ =>
    if c.toNat < 0x20 then
      ['\\', 'u', '0', '0', Nat.digitChar (c.toNat / 16), Nat.digitChar (c.toNat % 16)]
    else [c]

/-- A JSON string. -/
def jsonString (text : String) : String :=
  String.ofList ('"' :: text.toList.flatMap jsonChar ++ ['"'])

/-- Items between two brackets, each on a line of its own and indented once more than the brackets.
Without items the brackets touch. -/
def jsonBlock (opening closing indent : String) (items : List String) : String :=
  if items.isEmpty then opening ++ closing
  else
    opening ++ "\n" ++ String.intercalate ",\n" (items.map (indent ++ "  " ++ ·))
      ++ "\n" ++ indent ++ closing

/-- An object of which the values are written already. -/
def jsonObject (indent : String) (entries : List (String × String)) : String :=
  jsonBlock "\x7b" "\x7d" indent (entries.map fun (key, value) => jsonString key ++ ": " ++ value)

def Field.json (f : Field) (indent : String) : String :=
  jsonObject indent
    [("name", jsonString f.name), ("type_descriptor", jsonString f.descriptor),
      ("documentation", jsonString f.documentation)]

/-- **A description as JSON**, without a line end. -/
def Description.json (d : Description) : String :=
  jsonObject ""
    [("package_name", jsonString d.package), ("simple_name", jsonString d.name),
      ("documentation", jsonString d.documentation),
      ("fields", jsonBlock "[" "]" "  " (d.fields.map (·.json "    ")))]

end ValueClass
