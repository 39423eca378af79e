import SerialLine.Arguments.Numeral
import SerialLine.Binary32.Reading
import SerialLine.Error
/-!
# Arguments

A text of `key=value` words, separated by ASCII blanks, as it reaches a board when it starts. A word
without `=` stands for the value `true`, a word without a key for nothing, and of several words with
one key the last counts.
-/
set_option autoImplicit false

namespace SerialLine

structure Argument where
  key : String
  value : String
  deriving DecidableEq, Inhabited

structure Arguments where
  entries : List Argument := []
  deriving DecidableEq, Inhabited

namespace Arguments

/-- The characters that separate words: space, tab, line feed, form feed and carriage return. -/
def isBlank (c : Char) : Bool :=
  c = ' ' || c = '\t' || c = '\n' || c = '\x0c' || c = '\r'

/-- The words of a text, when the characters `read` of a word (last first) stand before it. -/
def wordsAfter (read : List Char) : List Char → List (List Char)
  | [] => if read.isEmpty then [] else [read.reverse]
  | c :: rest =>
    if isBlank c then
      if read.isEmpty then wordsAfter [] rest else read.reverse :: wordsAfter [] rest
    else wordsAfter (c :: read) rest

def words (text : List Char) : List (List Char) :=
  wordsAfter [] text

/-- The value of a word that is only a key. -/
def impliedValue : String := "true"

/-- The argument that a word stands for: the key ends at the first `=`. -/
def ofWord? (word : List Char) : Option Argument :=
  let key := word.takeWhile (· ≠ '=')
  let value := match word.dropWhile (· ≠ '=') with
    | [] => impliedValue
    | _ :: value => String.ofList value
  if key.isEmpty then none else some ⟨String.ofList key, value⟩

/-- The arguments with those of a text after them. -/
def append (args : Arguments) (text : String) : Arguments :=
  ⟨args.entries ++ (words text.toList).filterMap ofWord?⟩

def parse (text : String) : Arguments :=
  append {} text

def count (args : Arguments) : Nat := args.entries.length

def isEmpty (args : Arguments) : Bool := args.entries.isEmpty

/-- The value of a key: that of its last argument. -/
def get? (args : Arguments) (key : String) : Option String :=
  (args.entries.reverse.find? (·.key = key)).map (·.value)

/-- The keys that messages name. -/
def knownFields : List String :=
  ["baudrate", "bits", "parity", "stop", "timeout", "rxbuf", "tx", "rx", "rts", "cts",
    "rs485_dir", "rs485_invert"]

/-- The part of a key after its last point. -/
def lastField (key : String) : String :=
  String.ofList (key.toList.reverse.takeWhile (· ≠ '.')).reverse

/-- How a message calls a key: by its last field if that is a known one. -/
def fieldName (key : String) : String :=
  if knownFields.contains (lastField key) then lastField key else "argument"

/-- The fault of a value that cannot be read. -/
def invalid (key : String) : Error :=
  .config (.invalidValue (fieldName key))

/-- The truth value of a key: `0`, `false` and `off` are false, all other values true. -/
def getBool (args : Arguments) (key : String) (default : Bool) : Bool :=
  match args.get? key with
  | none => default
  | some value => !(["0", "false", "off"].contains value)

def getUInt32 (args : Arguments) (key : String) (default : UInt32) : Except Error UInt32 :=
  match args.get? key with
  | none => .ok default
  | some value =>
    match Numeral.read? value.toList with
    | some n => .ok n
    | none => .error (invalid key)

def getBinary32 (args : Arguments) (key : String) (default : Binary32) : Except Error Binary32 :=
  match args.get? key with
  | none => .ok default
  | some value =>
    match Binary32.ofText? value with
    | some x => .ok x
    | none => .error (invalid key)

theorem entries_append (args : Arguments) (text : String) :
    (args.append text).entries = args.entries ++ (parse text).entries := by
  simp [append, parse]

theorem get?_append (args : Arguments) (text key : String) :
    (args.append text).get? key = ((parse text).get? key).or (args.get? key) := by
  simp [get?, entries_append, List.find?_append, Option.map_or]

end Arguments
end SerialLine
