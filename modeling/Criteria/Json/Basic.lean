/-!
# JSON values

A JSON value and its compact text.  A number is kept as it is spelled, so that
no digit is lost and `1` and `1.0` stay apart.  A record keeps its members in
order.  In a text, quotation marks, backslashes and control characters are
escaped and everything else stands for itself.
-/

namespace Criteria

/-- A JSON value. -/
inductive Json where
  | null
  | bool (value : Bool)
  /-- A number, as it is spelled. -/
  | number (spelling : String)
  | text (content : String)
  | list (items : List Json)
  /-- Named values, in order. -/
  | record (members : List (String × Json))
  deriving Repr, Inhabited

namespace Json

/-- The number spelled with plain digits. -/
def ofNat (value : Nat) : Json :=
  number (toString value)

/-- The value of a list of decimal digits, or nothing if a character is no
digit or if there is none. -/
def digitsValue? (digits : List Char) : Option Nat :=
  if !digits.isEmpty && digits.all Char.isDigit then
    some (digits.foldl (fun value digit => 10 * value + (digit.toNat - '0'.toNat)) 0)
  else none

/-- The natural number that a number spelled with plain digits stands for. -/
def natural? : Json → Option Nat
  | number spelling => digitsValue? spelling.toList
  | _ => none

/-- The member of a record with the given name; of several, the last. -/
def member? (name : String) : Json → Option Json
  | record members => members.reverse.lookup name
  | _ => none

/-- A hexadecimal digit in lower case. -/
def hexDigit (value : Nat) : Char :=
  if value < 10 then Char.ofNat ('0'.toNat + value)
  else Char.ofNat ('a'.toNat + (value - 10))

/-- How a character stands in a text. -/
def escape (character : Char) : List Char :=
  if character = '"' then ['\\', '"']
  else if character = '\\' then ['\\', '\\']
  else if character.toNat < 0x20 then
    match character with
    | '\x08' => ['\\', 'b']
    | '\t' => ['\\', 't']
    | '\n' => ['\\', 'n']
    | '\x0C' => ['\\', 'f']
    | '\r' => ['\\', 'r']
    | _ =>
        ['\\', 'u', '0', '0', hexDigit (character.toNat / 16),
          hexDigit (character.toNat % 16)]
  else [character]

/-- A text between quotation marks. -/
def writeText (content : String) : List Char :=
  '"' :: (content.toList.flatMap escape ++ ['"'])

mutual

/-- The characters of the compact text: no blanks, members in order. -/
def write : Json → List Char
  | null => "null".toList
  | bool true => "true".toList
  | bool false => "false".toList
  | number spelling => spelling.toList
  | text content => writeText content
  | list [] => ['[', ']']
  | list (item :: items) => '[' :: (item.write ++ writeItems items)
  | record [] => ['\x7b', '\x7d']
  | record ((name, value) :: members) =>
      '\x7b' :: (writeText name ++ ':' :: (value.write ++ writeMembers members))

/-- The further items of a list, to its closing bracket. -/
def writeItems : List Json → List Char
  | [] => [']']
  | item :: items => ',' :: (item.write ++ writeItems items)

/-- The further members of a record, to its closing brace. -/
def writeMembers : List (String × Json) → List Char
  | [] => ['\x7d']
  | (name, value) :: members =>
      ',' :: (writeText name ++ ':' :: (value.write ++ writeMembers members))

end

/-- The compact text of a value. -/
def compact (json : Json) : String :=
  String.ofList json.write

end Json

end Criteria
