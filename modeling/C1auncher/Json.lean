import C1auncher.CString

/-!
JSON values and their indented text.
-/

namespace C1auncher.Json

open CString List

/-- A value; of a number there is the literal. -/
inductive Json
  | null
  | bool (b : Bool)
  | number (literal : Text)
  | string (text : Text)
  | array (items : List Json)
  | object (fields : List (Text × Json))

/-- A new line, indented by two blanks a level. -/
def newline (depth : ℕ) : Text := '\n' :: List.replicate (2 * depth) ' '

/-- A text without characters that need an escape, in quotes. -/
def quoted (text : Text) : Text := '"' :: text ++ ['"']

mutual

def indented (depth : ℕ) : Json → Text
  | .null => "null".toList
  | .bool b => if b then "true".toList else "false".toList
  | .number literal => literal
  | .string text => quoted text
  | .array items =>
    match items with
    | [] => ['[', ']']
    | item :: items =>
      '[' :: newline (depth + 1) ++ indented (depth + 1) item ++ moreItems (depth + 1) items ++
        newline depth ++ [']']
  | .object fields =>
    match fields with
    | [] => ['{', '}']
    | field :: fields =>
      '{' :: newline (depth + 1) ++ indentedField (depth + 1) field ++
        moreFields (depth + 1) fields ++ newline depth ++ ['}']

def moreItems (depth : ℕ) : List Json → Text
  | [] => []
  | item :: items => ',' :: newline depth ++ indented depth item ++ moreItems depth items

def moreFields (depth : ℕ) : List (Text × Json) → Text
  | [] => []
  | field :: fields => ',' :: newline depth ++ indentedField depth field ++ moreFields depth fields

def indentedField (depth : ℕ) : Text × Json → Text
  | (key, value) => quoted key ++ [':', ' '] ++ indented depth value

end

example : indented 0 (.object [("a".toList, .array [.number ['1'], .null])]) =
    "\x7b\n  \"a\": [\n    1,\n    null\n  ]\n\x7d".toList := by decide

/-! ### Lengths -/

end C1auncher.Json
