import SharedState.Datum

/-! JSON texts of values: with two blanks for each level, or on one line. Every character is ASCII. -/
namespace SharedState.Json

def hexDigit (n : Nat) : Char := if n < 10 then Char.ofNat (48 + n) else Char.ofNat (87 + n)

def unitEscape (n : Nat) : List Char :=
  ['\\', 'u', hexDigit (n / 4096 % 16), hexDigit (n / 256 % 16), hexDigit (n / 16 % 16), hexDigit (n % 16)]

/-- A character inside a string. Those beyond the basic plane take two escapes. -/
def escapeChar (c : Char) : List Char :=
  if c = '"' then ['\\', '"']
  else if c = '\\' then ['\\', '\\']
  else if c = '\n' then ['\\', 'n']
  else if c = '\r' then ['\\', 'r']
  else if c = '\t' then ['\\', 't']
  else if c = '\x08' then ['\\', 'b']
  else if c = '\x0c' then ['\\', 'f']
  else
    let n := c.toNat
    if 32 ≤ n && n < 127 then [c]
    else if n < 0x10000 then unitEscape n
    else unitEscape (0xD800 + (n - 0x10000) / 1024) ++ unitEscape (0xDC00 + (n - 0x10000) % 1024)

def quote (s : String) : String := String.ofList ('"' :: s.toList.flatMap escapeChar ++ ['"'])

def blanks (level : Nat) : String := String.ofList (List.replicate (2 * level) ' ')

def enclose (level : Nat) (left right : String) (lines : List String) : String :=
  if lines.isEmpty then left ++ right
  else left ++ "\n" ++ ",\n".intercalate (lines.map (blanks (level + 1) ++ ·)) ++ "\n" ++ blanks level ++ right

def scalar : Datum → String
  | .null => "null"
  | .bool true => "true"
  | .bool false => "false"
  | .int n => toString n
  | .real d => toString d.mantissa ++ "e" ++ toString d.exponent
  | .unreal => "NaN"
  | .text s => quote s
  | _ => "null"

mutual
def indentedAt (level : Nat) : Datum → String
  | .list items => enclose level "[" "]" (itemLines (level + 1) items)
  | .table fields => enclose level "\x7b" "\x7d" (fieldLines (level + 1) fields)
  | d => scalar d
def itemLines (level : Nat) : List Datum → List String
  | [] => []
  | d :: rest => indentedAt level d :: itemLines level rest
def fieldLines (level : Nat) : List (String × Datum) → List String
  | [] => []
  | (key, d) :: rest => (quote key ++ ": " ++ indentedAt level d) :: fieldLines level rest
end

def indented (d : Datum) : String := indentedAt 0 d

mutual
def inline : Datum → String
  | .list items => "[" ++ ",".intercalate (inlineItems items) ++ "]"
  | .table fields => "\x7b" ++ ",".intercalate (inlineFields fields) ++ "\x7d"
  | d => scalar d
def inlineItems : List Datum → List String
  | [] => []
  | d :: rest => inline d :: inlineItems rest
def inlineFields : List (String × Datum) → List String
  | [] => []
  | (key, d) :: rest => (quote key ++ ":" ++ inline d) :: inlineFields rest
end

end SharedState.Json
